import Implementers.Proofs.Query.Counterparts
import Implementers.Proofs.Query.Surveys

namespace Implementers

/-!
# Scanning a tree and scanning its files side by side

A recursive query on a tree outside of modules, in which no package name is used in two directories,
answers like a query on one directory that holds all the files side by side: both succeed or both
fail, and they show the same interfaces with the same implementers.  The packages of the two scans
belong to different units, but a renaming that exchanges the units of each package leads from one
scan to the other.
-/

/-! ## What a scan shows -/

/-- A type as every scan of the same files shows it, whatever directories hold them. -/
structure Outline where
  type : String
  fileName : String
  line : Nat
  column : Nat
  deriving Repr, DecidableEq

/-- The outline of a symbol's type with the place of its declaration. -/
def Symbol.outline
    (symbol : Symbol) :
    Outline :=
  ⟨symbol.typeString, symbol.declaration.fileName, symbol.declaration.line,
    symbol.declaration.column⟩

/-- The outline that a label in a report tells. -/
def Outline.ofLabel
    (label : Report.TypeLabel) :
    Outline :=
  ⟨label.name, (Path.mk label.place.fileName).fileName?.getD label.place.fileName,
    label.place.line, label.place.column⟩

/-- The label of a symbol tells its outline. -/
theorem Symbol.outline_eq_ofLabel
    (symbol : Symbol) :
    symbol.outline = .ofLabel (.ofSymbol symbol) :=
  rfl

/-- Matches of interfaces of one outline, whose implementers have the same outlines. -/
structure Match.SameOutline
    (left right : Match) :
    Prop where
  interface : left.interface.outline = right.interface.outline
  implementers :
    (left.implementers.map Symbol.outline).Perm (right.implementers.map Symbol.outline)

namespace Match.SameOutline

theorem trans
    {first second third : Match}
    (one : first.SameOutline second)
    (other : second.SameOutline third) :
    first.SameOutline third :=
  ⟨one.interface.trans other.interface, one.implementers.trans other.implementers⟩

theorem symm
    {left right : Match}
    (same : left.SameOutline right) :
    right.SameOutline left :=
  ⟨same.interface.symm, same.implementers.symm⟩

/-- Matches paired off by their outlines one after the other. -/
theorem paired_trans
    {first second third : List Match}
    (one : Paired SameOutline first second)
    (other : Paired SameOutline second third) :
    Paired SameOutline first third :=
  Paired.trans one other fun _ _ _ same sameNext => same.trans sameNext

/-- Matches that show the same in a report have the same outline. -/
theorem of_showsSame
    {left right : Match}
    (same : Report.ShowsSame left right) :
    left.SameOutline right := by
  constructor
  · rw [Symbol.outline_eq_ofLabel, Symbol.outline_eq_ofLabel, same.interface]
  · have implementers := same.implementers.map Outline.ofLabel
    rw [List.map_map, List.map_map] at implementers
    exact implementers

/-- Matches of symbols with the same outlines have the same outline. -/
theorem of_related
    {related : Symbol → Symbol → Prop}
    (same : ∀ symbol symbol', related symbol symbol' → symbol.outline = symbol'.outline)
    {left right : Match}
    (isRelated : Match.Related related left right) :
    left.SameOutline right := by
  refine ⟨same _ _ isRelated.interface, ?_⟩
  have outlines :
      left.implementers.map Symbol.outline = right.implementers.map Symbol.outline := by
    rw [← List.forall₂_eq_eq_eq, List.forall₂_map_left_iff, List.forall₂_map_right_iff]
    exact isRelated.implementers.imp same
  rw [outlines]

end Match.SameOutline

/-! ## Leaves side by side -/

namespace Leaf

/-- Leaves declare the same packages side by side. -/
theorem packages_beside
    (leaves : List Leaf) :
    packages (leaves.map beside) = packages leaves := by
  simp only [packages, List.filterMap_map]
  rfl

/-- Leaves are the same source files side by side. -/
theorem filesAt_beside
    (place : Leaf → Path)
    (leaves : List Leaf) :
    filesAt place (leaves.map beside) = filesAt (fun leaf => place leaf.beside) leaves := by
  simp only [filesAt, List.filterMap_map]
  rfl

end Leaf

section SideBySide

variable
  {entries flatEntries : List (String × Entry)}
  (arePlain : Entry.ArePlain flatEntries)
  (sideBySide : flatEntries.Perm ((Entry.leavesOf [] entries).map Leaf.entry))

include arePlain sideBySide

/-- Files that can stand side by side have different names. -/
theorem Entry.nodup_of_sideBySide :
    ((Entry.leavesOf [] entries).map Leaf.name).Nodup := by
  have names := sideBySide.map Prod.fst
  rw [List.map_map] at names
  exact names.nodup_iff.mp arePlain.nodup

/-- The accepted files of a directory that holds the leaves of a tree side by side. -/
theorem Entry.sources_beside
    (includeTests : Bool) :
    Entry.sources includeTests flatEntries =
      (Entry.sources includeTests entries).map Leaf.beside := by
  have accepted :
      ((Entry.leavesOf [] flatEntries).filter (Leaf.isAccepted includeTests)).Perm
        (((Entry.leavesOf [] entries).filter (Leaf.isAccepted includeTests)).map Leaf.beside) := by
    have perm := (Entry.leavesOf_perm sideBySide).filter (Leaf.isAccepted includeTests)
    rw [List.filter_map] at perm
    exact perm
  have distinct := Entry.nodup_of_sideBySide arePlain sideBySide
  refine Leaf.mergeSort_eq_of_perm ?_
    (accepted.trans ((List.mergeSort_perm _ Leaf.notAfter).symm.map Leaf.beside)) ?_
  · refine (accepted.map Leaf.name).nodup_iff.mpr ?_
    rw [List.map_map]
    exact distinct.sublist (List.filter_sublist.map Leaf.name)
  · exact List.pairwise_map.mpr (Leaf.pairwise_mergeSort _)

end SideBySide

namespace Transfer

variable
  {rename : Renaming}
  {target : Path → Path}
  {symbol symbol' : Symbol}

/-- A symbol at another path is declared at the same line and column. -/
theorem Counterpart.declaration_toPaths
    (counterpart : (toPaths rename target).Counterpart symbol symbol') :
    symbol'.declaration = { symbol.declaration with file := target symbol.declaration.file } := by
  obtain ⟨file, offset, before, after⟩ := counterpart.declaration
  rw [before, after]
  rfl

/-- A symbol at another path has the same outline if the file has the same name. -/
theorem Counterpart.outline
    (counterpart : (toPaths rename target).Counterpart symbol symbol')
    {name : String}
    (before : symbol.declaration.file.fileName? = some name)
    (after : (target symbol.declaration.file).fileName? = some name) :
    symbol.outline = symbol'.outline := by
  simp only [Symbol.outline, counterpart.typeString, counterpart.declaration_toPaths,
    Position.fileName, before, after, Option.getD_some]

end Transfer

namespace Query

/-! ## Two surveys -/

section Surveys

variable
  {files flatFiles : FileSystem}
  {config flatConfig : Config}
  {sources : List Leaf}
  {units flatUnits : List SourceUnit}
  {packages flatPackages : List PackageId}
  (survey : Surveys files config sources units packages)
  (flatSurvey : Surveys flatFiles flatConfig (sources.map Leaf.beside) flatUnits flatPackages)

include survey flatSurvey

/-- The packages of the flat scan are those of the tree under their new identities. -/
theorem exchanged_perm :
    (packages.map (Renaming.exchanging packages flatPackages).package).Perm flatPackages := by
  have sameNames (name : String) :
      name ∈ packages.map PackageId.name ↔ name ∈ flatPackages.map PackageId.name := by
    rw [survey.declared, flatSurvey.declared, Leaf.packages_beside]
  have exchanged {home other : PackageId} (member : home ∈ packages)
      (otherMember : other ∈ flatPackages) (sameName : home.name = other.name) :
      (Renaming.exchanging packages flatPackages).package home = other :=
    Renaming.exchanging_package survey.distinct flatSurvey.distinct member otherMember sameName
  have keepsNames :
      (packages.map (Renaming.exchanging packages flatPackages).package).map PackageId.name =
        packages.map PackageId.name := by
    rw [List.map_map]
    exact List.map_congr_left fun package _ => Renaming.name _ package
  have distinct :
      (packages.map (Renaming.exchanging packages flatPackages).package).Nodup :=
    .of_map PackageId.name (keepsNames ▸ survey.distinct)
  refine (List.perm_ext_iff_of_nodup distinct (.of_map _ flatSurvey.distinct)).mpr fun other => ?_
  constructor
  · intro listed
    obtain ⟨home, member, rfl⟩ := List.mem_map.mp listed
    obtain ⟨flatHome, flatMember, sameName⟩ :=
      List.mem_map.mp ((sameNames home.name).mp (List.mem_map_of_mem member))
    rwa [exchanged member flatMember sameName.symm]
  · intro member
    obtain ⟨home, homeMember, sameName⟩ :=
      List.mem_map.mp ((sameNames other.name).mpr (List.mem_map_of_mem member))
    exact List.mem_map.mpr ⟨home, homeMember, exchanged homeMember member sameName⟩

end Surveys

/-- Where a file of the tree is in the flat directory. -/
def flatPath
    (root path : Path) :
    Path :=
  root.join (path.fileName?.getD "")

section Transferred

variable
  {files flatFiles : FileSystem}
  {config flatConfig : Config}
  {place flatPlace : List String}
  {sources : List Leaf}
  {units flatUnits : List SourceUnit}
  {packages flatPackages : List PackageId}
  (survey : Surveys files config sources units packages)
  (flatSurvey : Surveys flatFiles flatConfig (sources.map Leaf.beside) flatUnits flatPackages)
  (isFound : ∀ leaf ∈ sources, leaf.IsFound files config.root place)
  (isFlat : ∀ leaf ∈ sources, leaf.beside.IsFound flatFiles flatConfig.root flatPlace)

/-- The transfer from the tree to the flat directory. -/
def flatTransfer
    (flatConfig : Config)
    (packages flatPackages : List PackageId) :
    Transfer :=
  .toPaths (.exchanging packages flatPackages) (flatPath flatConfig.root)

include isFound

/-- A leaf's path in the tree leads to the leaf's path in the flat directory. -/
theorem flatPath_pathBelow :
    ∀ leaf ∈ sources,
      flatPath flatConfig.root (leaf.pathBelow config.root) =
        leaf.beside.pathBelow flatConfig.root := by
  intro leaf member
  simp only [flatPath, (isFound leaf member).fileName?, Option.getD_some]
  rfl

/-- A package resolves in the flat directory when it does in the tree, to counterparts. -/
theorem transferred
    (package : PackageId) :
    let parsed := Leaf.filesAt (Leaf.pathBelow config.root) sources
    let flatParsed := Leaf.filesAt (Leaf.pathBelow flatConfig.root) (sources.map Leaf.beside)
    let renamed := (Renaming.exchanging packages flatPackages).package package
    (PackageFile.Resolves parsed package ↔ PackageFile.Resolves flatParsed renamed) ∧
      List.Forall₂ (flatTransfer flatConfig packages flatPackages).Counterpart
        (PackageFile.symbolsOf parsed package) (PackageFile.symbolsOf flatParsed renamed) := by
  intro parsed flatParsed renamed
  have moved :
      flatParsed = Leaf.filesAt (fun leaf => leaf.beside.pathBelow flatConfig.root) sources :=
    Leaf.filesAt_beside _ sources
  rw [moved]
  exact Transfer.symbolsOf_filesAt (flatPath_pathBelow isFound) package

/-- A symbol that is declared in a leaf of the tree, and its counterpart in the flat directory. -/
def FlatCounterpart
    (config flatConfig : Config)
    (sources : List Leaf)
    (packages flatPackages : List PackageId)
    (symbol symbol' : Symbol) :
    Prop :=
  (∃ leaf ∈ sources, symbol.declaration.file = leaf.pathBelow config.root) ∧
    (flatTransfer flatConfig packages flatPackages).Counterpart symbol symbol'

include isFlat in
/-- A symbol and its counterpart in the flat directory have the same outline. -/
theorem FlatCounterpart.outline
    {symbol symbol' : Symbol}
    (counterpart : FlatCounterpart config flatConfig sources packages flatPackages symbol symbol') :
    symbol.outline = symbol'.outline := by
  obtain ⟨⟨leaf, member, inLeaf⟩, moved⟩ := counterpart
  refine Transfer.Counterpart.outline moved (inLeaf ▸ (isFound leaf member).fileName?) ?_
  rw [inLeaf, flatPath_pathBelow isFound leaf member]
  exact (isFlat leaf member).fileName?

include survey

/-- The symbols of a tree that resolves have counterparts among those of the moved packages. -/
theorem counterparts_flat
    (produced : ∀ unit ∈ units, ∃ symbols, (resolving files).outcome unit = .produced symbols) :
    List.Forall₂ (FlatCounterpart config flatConfig sources packages flatPackages)
      (packageSymbols config sources packages)
      (packageSymbols flatConfig (sources.map Leaf.beside)
        (packages.map (Renaming.exchanging packages flatPackages).package)) := by
  refine (List.forall₂_and_left _ _).mpr
    ⟨fun symbol member => survey.declaration_mem produced member, ?_⟩
  refine List.rel_filter (fun symbol symbol' counterpart => by simp only [counterpart.isNamed]) ?_
  rw [List.flatMap_map, List.flatMap_def, List.flatMap_def]
  refine List.rel_flatten ?_
  rw [List.forall₂_map_left_iff, List.forall₂_map_right_iff, List.forall₂_same]
  exact fun package _ => (transferred isFound package).2

include flatSurvey

omit isFound in
/-- The order of the packages in the flat directory does not matter. -/
theorem agree_flat :
    Universe.Agree
      (packageSymbols flatConfig (sources.map Leaf.beside)
        (packages.map (Renaming.exchanging packages flatPackages).package))
      (packageSymbols flatConfig (sources.map Leaf.beside) flatPackages) := by
  have exchanged := exchanged_perm survey flatSurvey
  refine (Universe.agree_of_perm
    (fun _ _ _ member => PackageFile.package_of_mem_symbolsOf member) ?_ exchanged).filter _
  exact (exchanged.map PackageId.name).nodup_iff.mpr flatSurvey.distinct

/-- Both scans fail or both succeed. -/
theorem isOk_iff_flat
    {answer flatAnswer : Except QueryError (List Match)}
    (answers : Answers files config answer)
    (flatAnswers : Answers flatFiles flatConfig flatAnswer) :
    answer.isOk ↔ flatAnswer.isOk := by
  rw [survey.isOk_iff answers, flatSurvey.isOk_iff flatAnswers]
  have sound :
      (∀ leaf ∈ sources, leaf.package?.isSome) ↔
        ∀ leaf ∈ sources.map Leaf.beside, leaf.package?.isSome := by
    rw [List.forall_mem_map]
    rfl
  refine and_congr sound ?_
  have exchanged := exchanged_perm survey flatSurvey
  constructor
  · intro resolve package member
    obtain ⟨home, isHome, rfl⟩ := List.mem_map.mp (exchanged.mem_iff.mpr member)
    exact (transferred isFound home).1.mp (resolve home isHome)
  · intro resolve package member
    exact (transferred isFound package).1.mpr
      (resolve _ (exchanged.mem_iff.mp (List.mem_map_of_mem member)))

include isFlat

/-- When the scan of the tree succeeds, what it finds is found in the flat directory. -/
theorem found_flat
    {found flatFound : List Match}
    (sameTarget : flatConfig.interface = config.interface)
    (sameMode : flatConfig.concreteOnly = config.concreteOnly)
    (answers : Answers files config (.ok found))
    (flatAnswers : Answers flatFiles flatConfig (.ok flatFound)) :
    Paired Match.SameOutline found flatFound := by
  obtain ⟨warnings, walk⟩ := survey.walk
  have counterparts :
      List.Forall₂ (FlatCounterpart config flatConfig sources packages flatPackages) _ _ :=
    counterparts_flat survey isFound ((answers.isOk_iff walk).mp rfl)
  have inTree := (survey.found_paired answers).imp fun _ _ => Match.SameOutline.of_showsSame
  have moved :=
    (Paired.of_forall₂ (Transfer.find (fun _ _ counterpart => counterpart.2) counterparts
      config.concreteOnly config.interface)).imp fun _ _ =>
        Match.SameOutline.of_related fun _ _ => FlatCounterpart.outline isFound isFlat
  have inOrder :=
    (Matching.find_paired (agree_flat survey flatSurvey) config.concreteOnly
      config.interface).imp fun _ _ => Match.SameOutline.of_showsSame
  have inFlat :=
    ((flatSurvey.found_paired flatAnswers).imp fun _ _ =>
      Match.SameOutline.of_showsSame).symm.imp fun _ _ => Match.SameOutline.symm
  rw [sameTarget, sameMode] at inFlat
  exact Match.SameOutline.paired_trans
    (Match.SameOutline.paired_trans (Match.SameOutline.paired_trans inTree moved) inOrder) inFlat

end Transferred

/--
A recursive scan of a plain tree outside of modules, and a scan of a directory outside of modules
that holds the files of the tree side by side: if source files that declare one package are in one
directory of the tree, the two scans either both fail or both succeed, and then they have the same
matches by outline, each with the same implementers by outline.
-/
theorem flattened
    {files flatFiles : FileSystem}
    {config flatConfig : Config}
    {place flatPlace : List String}
    {entries flatEntries : List (String × Entry)}
    (tree : IsScanned files config.root place entries)
    (flat : IsScanned flatFiles flatConfig.root flatPlace flatEntries)
    (sideBySide : flatEntries.Perm ((Entry.leavesOf [] entries).map Leaf.entry))
    (together :
      Leaf.KeepTogether
        ((Entry.leavesOf [] entries).filter (Leaf.isAccepted config.walk.includeTests)))
    (recursive : config.walk.recursive)
    (sameTests : flatConfig.walk.includeTests = config.walk.includeTests)
    (sameTarget : flatConfig.interface = config.interface)
    (sameMode : flatConfig.concreteOnly = config.concreteOnly)
    {answer flatAnswer : Except QueryError (List Match)}
    (answers : Answers files config answer)
    (flatAnswers : Answers flatFiles flatConfig flatAnswer) :
    (answer.isOk ↔ flatAnswer.isOk) ∧
      ∀ found flatFound, answer = .ok found → flatAnswer = .ok flatFound →
        Paired Match.SameOutline found flatFound := by
  have distinct := Entry.nodup_of_sideBySide flat.arePlain sideBySide
  have beside := Entry.sources_beside flat.arePlain sideBySide config.walk.includeTests
  have areFiles : ∀ entry ∈ flatEntries, ∃ content, entry.2 = .file content := by
    intro entry member
    obtain ⟨leaf, _, rfl⟩ := List.mem_map.mp (sideBySide.mem_iff.mp member)
    exact ⟨leaf.content, rfl⟩
  have flatDistinct : ((Entry.leavesOf [] flatEntries).map Leaf.name).Nodup := by
    have names := (Entry.leavesOf_perm sideBySide).map Leaf.name
    rw [List.map_map] at names
    exact names.nodup_iff.mpr distinct
  have flatTogether :
      Leaf.KeepTogether (Entry.sources flatConfig.walk.includeTests flatEntries) := by
    rw [sameTests, beside]
    intro leaf member other otherMember _ _
    obtain ⟨_, _, rfl⟩ := List.mem_map.mp member
    obtain ⟨_, _, rfl⟩ := List.mem_map.mp otherMember
    rfl
  obtain ⟨units, packages, survey⟩ :=
    tree.exists_surveys distinct (.inl recursive) (together.of_perm (List.mergeSort_perm _ _).symm)
  obtain ⟨flatUnits, flatPackages, flatSurvey⟩ :=
    flat.exists_surveys flatDistinct (.inr areFiles) flatTogether
  rw [sameTests, beside] at flatSurvey
  have isFound (leaf : Leaf)
      (member : leaf ∈ Entry.sources config.walk.includeTests entries) :=
    tree.isFound_source member
  have isFlat (leaf : Leaf)
      (member : leaf ∈ Entry.sources config.walk.includeTests entries) :=
    flat.isFound_source (beside ▸ List.mem_map_of_mem member)
  refine ⟨isOk_iff_flat survey flatSurvey isFound answers flatAnswers, ?_⟩
  rintro found flatFound rfl rfl
  exact found_flat survey flatSurvey isFound isFlat sameTarget sameMode answers flatAnswers

/-! ## A tree with three packages -/

namespace Nested

/-- A file with an interface. -/
def shape : Content :=
  .text "package a\n\ntype Shape interface{ Area() int }\n"

/-- A file with a type that implements the interface. -/
def cube : Content :=
  .text "package b\n\ntype Cube int\n\nfunc (Cube) Area() int { return 4 }\n"

/-- A file with another type that implements the interface. -/
def disc : Content :=
  .text "package d\n\ntype Disc struct{}\n\nfunc (Disc) Area() int { return 3 }\n"

/-- The files in a tree of directories. -/
def entries : List (String × Entry) :=
  [ ("a", .directory [("s.go", .file shape)]),
    ("b",
      .directory
        [("c.go", .file cube), ("d", .directory [("d.go", .file disc)])])]

/-- The files side by side. -/
def flatEntries : List (String × Entry) :=
  [("c.go", .file cube), ("s.go", .file shape), ("d.go", .file disc)]

/-- A file system with the tree in its working directory. -/
def files : FileSystem :=
  { root := .directory [("w", .directory entries)], workingDirectory := ["w"] }

/-- A file system with the files side by side in its working directory. -/
def flatFiles : FileSystem :=
  { root := .directory [("flat", .directory flatEntries)], workingDirectory := ["flat"] }

/-- A query for the interface. -/
def config : Config :=
  { root := ⟨"."⟩, interface := ⟨"a", "Shape"⟩ }

/-- The same query without going into directories. -/
def flatConfig : Config :=
  { config with walk := { recursive := false } }

theorem isScanned_files : IsScanned files config.root ["w"] entries where
  located := by decide +kernel
  atPlace := rfl
  areNames := by decide
  arePlain := by simp [entries, Entry.ArePlain, Entry.IsPlain]; decide
  moduleFree := FileSystem.isModuleFree_of_lacks (by decide) _

theorem isScanned_flatFiles : IsScanned flatFiles flatConfig.root ["flat"] flatEntries where
  located := by decide +kernel
  atPlace := rfl
  areNames := by decide
  arePlain := by simp [flatEntries, Entry.ArePlain, Entry.IsPlain]; decide
  moduleFree := FileSystem.isModuleFree_of_lacks (by decide) _

/-- The units of the tree. -/
def units : List SourceUnit :=
  [ .directory ⟨"./a"⟩ [⟨"./a/s.go"⟩], .directory ⟨"./b"⟩ [⟨"./b/c.go"⟩],
    .directory ⟨"./b/d"⟩ [⟨"./b/d/d.go"⟩]]

/-- The files that the walk finds. -/
def found : List Path :=
  [⟨"./a/s.go"⟩, ⟨"./b/c.go"⟩, ⟨"./b/d/d.go"⟩]

theorem filesBelow_files :
    Walk.filesBelow files {} ⟨"."⟩ ["w"] = .ok found := by
  cbv

theorem units_found : Walk.units ⟨"."⟩ (found.filter (Walk.accepts {})) = units := by
  have directories :
      Walk.distinct ((found.filter (Walk.accepts {})).map (Walk.directoryOf ⟨"."⟩)) =
        [⟨"./a"⟩, ⟨"./b"⟩, ⟨"./b/d"⟩] := by
    decide +kernel
  have sorted :
      List.mergeSort [⟨"./a"⟩, ⟨"./b"⟩, ⟨"./b/d"⟩] Path.notAfter =
        [⟨"./a"⟩, ⟨"./b"⟩, ⟨"./b/d"⟩] :=
    List.mergeSort_of_pairwise (by decide +kernel)
  rw [Walk.units, directories, sorted]
  decide +kernel

theorem withImportPaths_units : Walk.withImportPaths files [] units = (units, []) := by
  decide +kernel

theorem walked_files : walked files config = .ok (units, []) := by
  have located : files.locate ⟨"."⟩ = .ok ["w"] := isScanned_files.located
  have isDirectory : ((files.root.at? ["w"]).any Entry.isDirectory) = true := rfl
  have below : Walk.unitsBelow files {} ⟨"."⟩ ["w"] = .ok (units, []) := by
    simp only [Walk.unitsBelow, filesBelow_files, bind, Except.bind, units_found,
      withImportPaths_units]
    rfl
  simp only [walked, config, Walk.unitsAt, located, isDirectory, ↓reduceIte, below]

/-- The scan of the tree and the scan of the files side by side find the same implementers. -/
theorem flattened_nested :
    ∃ found flatFound,
      Answers files config (.ok found) ∧ Answers flatFiles flatConfig (.ok flatFound) ∧
        found.map (fun row => (row.interface.outline, row.implementers.map Symbol.outline)) =
          [ (⟨"a.Shape", "s.go", 3, 6⟩,
              [⟨"b.Cube", "c.go", 3, 6⟩, ⟨"d.Disc", "d.go", 3, 6⟩])] ∧
        Paired Match.SameOutline found flatFound := by
  have single :
      ∀ unit ∈ units, ((resolving files).namedSymbols unit).length = 1 := by decide +kernel
  simp only [units, List.forall_mem_cons, List.not_mem_nil, false_implies, implies_true,
    and_true] at single
  obtain ⟨singleA, singleB, singleC⟩ := single
  obtain ⟨first, namedFirst, outcomeFirst⟩ := SharedImportPath.outcome_of_single singleA
  obtain ⟨second, namedSecond, outcomeSecond⟩ := SharedImportPath.outcome_of_single singleB
  obtain ⟨third, namedThird, outcomeThird⟩ := SharedImportPath.outcome_of_single singleC
  have outcomes :
      units.map (resolving files).outcome =
        [.produced [first], .produced [second], .produced [third]] := by
    simp only [units, List.map_cons, List.map_nil, outcomeFirst, outcomeSecond, outcomeThird]
  have gathered :
      units.flatMap (resolving files).namedSymbols = [first, second, third] := by
    simp [units, namedFirst, namedSecond, namedThird]
  have answers :
      Answers files config
        (.ok (matchesIn config units (units.flatMap (resolving files).namedSymbols))) := by
    rw [gathered]
    exact @Answers.resolved _ config _ _ _ walked_files
      (outcomes ▸ SharedImportPath.mayEnd_inOrder first second third)
  have flatAnswers := answers_find flatFiles flatConfig
  obtain ⟨bothSucceed, same⟩ :=
    flattened isScanned_files isScanned_flatFiles (.swap _ _ _) (by decide +kernel) rfl rfl rfl rfl
      answers flatAnswers
  cases flatAnswer : (find flatFiles flatConfig false).map Prod.fst with
  | error _ =>
      rw [flatAnswer] at bothSucceed
      cases bothSucceed.mp rfl
  | ok flatFound =>
      exact ⟨_, flatFound, answers, flatAnswer ▸ flatAnswers, by decide +kernel,
        same _ _ rfl flatAnswer⟩

end Nested

end Query

end Implementers
