import Implementers.Proofs.Files.Trees
import Implementers.Proofs.Order.Sorting
import Mathlib.Data.List.Nodup

namespace Implementers

/-!
# The units of a scanned tree

A recursive walk of a plain tree makes one unit for each directory that holds accepted files.  The
files of a unit are the accepted leaves of its directory in the order of their names.  Outside of
modules no unit gets an import path.
-/

/-! ## Accepted leaves in the order of their names -/

namespace Leaf

/-- Whether a leaf is a source file that belongs to some unit. -/
def isAccepted
    (includeTests : Bool)
    (leaf : Leaf) :
    Bool :=
  isSourceFile ⟨leaf.name⟩ && (includeTests || !isTestFile ⟨leaf.name⟩)

/-- Whether the name of a leaf does not come after that of another one. -/
def notAfter
    (left right : Leaf) :
    Bool :=
  compare left.name right.name != .gt

/-- Sorting leaves puts them in the order of their names. -/
theorem pairwise_mergeSort
    (leaves : List Leaf) :
    (leaves.mergeSort notAfter).Pairwise fun left right => left.notAfter right :=
  Sorting.pairwise (compareOn name) leaves

/-- Sorting leaves of different names brings every order of them into the one that is sorted. -/
theorem mergeSort_eq_of_perm
    {leaves sorted : List Leaf}
    (distinct : (leaves.map Leaf.name).Nodup)
    (perm : leaves.Perm sorted)
    (isSorted : sorted.Pairwise fun left right => left.notAfter right) :
    leaves.mergeSort notAfter = sorted := by
  have apart (leaf : Leaf) (listed : leaf ∈ leaves) (other : Leaf) (otherListed : other ∈ leaves)
      (level : compareOn name leaf other = .eq) : leaf = other :=
    List.inj_on_of_nodup_map distinct listed otherListed (Std.LawfulEqCmp.eq_of_compare level)
  exact Sorting.eq_of_perm (compareOn name) apart perm isSorted

end Leaf

namespace Entry

/-- The accepted leaves below a directory in the order of their names. -/
def sources
    (includeTests : Bool)
    (entries : List (String × Entry)) :
    List Leaf :=
  ((leavesOf [] entries).filter (Leaf.isAccepted includeTests)).mergeSort Leaf.notAfter

end Entry

/-! ## Paths of leaves -/

namespace Path

/-- The path of a name alone leads to a file of that name. -/
theorem fileName?_name
    {name : String}
    (isName : IsEntryName name) :
    fileName? ⟨name⟩ = some name := by
  have spelled : segments ⟨name⟩ = [name] := by
    simp [segments, Text.segments_of_not_mem isName.slashless]
  have relative : isAbsolute ⟨name⟩ = false := by
    rw [← Bool.not_eq_true, isAbsolute_iff spelled]
    simp
  have notCurrent : (name == ".") = false := beq_false_of_ne isName.notCurrent
  simp [fileName?, components_of_segments spelled, relative, firstComponent?, notCurrent,
    innerComponent?_name isName]

/-- The names on the way to a directory are its last components. -/
theorem components_foldl_join
    {names : List String}
    (areNames : ∀ name ∈ names, IsEntryName name) :
    ∀ {root : Path}, root.text ≠ "" →
      (names.foldl join root).components = root.components ++ names.map .normal := by
  induction names with
  | nil => simp
  | cons name rest inductionHypothesis =>
      intro root notEmpty
      obtain ⟨isName, restAreNames⟩ := List.forall_mem_cons.mp areNames
      rw [List.foldl_cons, inductionHypothesis restAreNames (join_ne_empty isName),
        components_join notEmpty isName, List.append_assoc]
      rfl

end Path

namespace Leaf.IsFound

variable
  {files : FileSystem}
  {root : Path}
  {place : List String}
  {leaf : Leaf}

/-- A leaf's path leads to a file of the leaf's name. -/
theorem fileName?
    (found : leaf.IsFound files root place) :
    (leaf.pathBelow root).fileName? = some leaf.name := by
  obtain ⟨siblings, leads, _⟩ := found.inDirectory
  exact Path.fileName?_join leads.notEmpty found.isName

/-- A leaf's path has the leaf's text. -/
theorem read
    (found : leaf.IsFound files root place) :
    files.read (leaf.pathBelow root) = leaf.content.decoded := by
  obtain ⟨siblings, leads, isFile⟩ := found.inDirectory
  exact leads.read_join found.isName isFile

/-- Whether a walk accepts a leaf is told by its name. -/
theorem accepts
    (found : leaf.IsFound files root place)
    (options : WalkOptions) :
    Walk.accepts options (leaf.pathBelow root) = leaf.isAccepted options.includeTests := by
  have same : (leaf.pathBelow root).fileName? = Path.fileName? ⟨leaf.name⟩ :=
    found.fileName?.trans (Path.fileName?_name found.isName).symm
  simp only [Walk.accepts, Leaf.isAccepted, isSourceFile, isTestFile, Path.extension?, same]

/-- Going back from a leaf leads to the directory that holds it. -/
theorem directoryOf
    (found : leaf.IsFound files root place)
    (notEmpty : root.text ≠ "") :
    (Walk.directoryOf root (leaf.pathBelow root)).components =
        root.components ++ leaf.directory.map .normal ∧
      files.locate (Walk.directoryOf root (leaf.pathBelow root)) =
        .ok (place ++ leaf.directory) := by
  obtain ⟨siblings, leads, _⟩ := found.inDirectory
  obtain ⟨parent, isParent, ends⟩ := Path.exists_parent_join leads.notEmpty found.isName
  have back : Walk.directoryOf root (leaf.pathBelow root) = parent := by
    unfold Walk.directoryOf Leaf.pathBelow
    rw [isParent, Option.getD_some]
  rw [back, ends.components]
  exact ⟨Path.components_foldl_join found.areNames notEmpty,
    FileSystem.locate_of_endsIdly ends leads.located⟩

/-- Leaves of one directory are ordered by their names. -/
theorem notAfter
    {other : Leaf}
    (found : leaf.IsFound files root place)
    (otherFound : other.IsFound files root place)
    (together : other.directory = leaf.directory) :
    (leaf.pathBelow root).notAfter (other.pathBelow root) = leaf.notAfter other := by
  obtain ⟨siblings, leads, _⟩ := found.inDirectory
  have sameDirectory : other.directoryBelow root = leaf.directoryBelow root := by
    simp only [Leaf.directoryBelow, together]
  simp only [Path.notAfter, Path.order, Leaf.pathBelow, sameDirectory,
    Path.components_join leads.notEmpty found.isName,
    Path.components_join leads.notEmpty otherFound.isName, Path.orderComponents_append,
    Leaf.notAfter]

end Leaf.IsFound

/-! ## Scanned trees -/

namespace Walk

/-- The distinct paths are some of the paths. -/
theorem mem_of_mem_distinct
    {paths : List Path}
    {path : Path}
    (member : path ∈ distinct paths) :
    path ∈ paths := by
  induction paths with
  | nil => exact member
  | cons first rest inductionHypothesis =>
      rcases List.mem_cons.mp member with rfl | later
      · exact List.mem_cons_self
      · exact List.mem_cons_of_mem first (inductionHypothesis (List.mem_of_mem_filter later))

/-- Each of the paths is the same as one of the distinct ones. -/
theorem exists_distinct_same
    {paths : List Path}
    {path : Path}
    (member : path ∈ paths) :
    ∃ first ∈ distinct paths, first.same path := by
  induction paths with
  | nil => cases member
  | cons first rest inductionHypothesis =>
      by_cases same : first.same path
      · exact ⟨first, List.mem_cons_self, same⟩
      · rcases List.mem_cons.mp member with rfl | later
        · exact absurd (Path.same_iff.mpr rfl) same
        · obtain ⟨other, isDistinct, otherSame⟩ := inductionHypothesis later
          refine ⟨other, List.mem_cons_of_mem first ?_, otherSame⟩
          refine List.mem_filter.mpr ⟨isDistinct, ?_⟩
          rw [Path.same_iff] at same otherSame
          simpa [Path.same, otherSame] using same

end Walk

/-- The leaves of a directory whose entries are named are found. -/
theorem FileSystem.LeadsTo.isFound
    {files : FileSystem}
    {root : Path}
    {place : List String}
    {entries : List (String × Entry)}
    (leads : files.LeadsTo root place entries)
    (areNamed : Entry.AreNamed entries)
    {leaf : Leaf}
    (member : leaf ∈ Entry.leavesOf [] entries) :
    leaf.IsFound files root place := by
  have atRoot : files.LeadsTo ([].foldl Path.join root) (place ++ []) entries := by
    rw [List.append_nil]
    exact leads
  exact Leaf.isFound_of_mem_leavesOf entries atRoot (by simp) (fun _ _ found => found)
    areNamed leaf member

/-- A listing of leaves that are found has the accepted ones among its paths, in some order. -/
theorem Walk.Lists.exists_accepted
    {files : FileSystem}
    {root : Path}
    {place : List String}
    {listing : Listing}
    {leaves : List Leaf}
    (lists : Lists listing (leaves.map (Leaf.pathBelow root)))
    (areFound : ∀ leaf ∈ leaves, leaf.IsFound files root place)
    (options : WalkOptions) :
    ∃ (found : List Path) (accepted : List Leaf),
      listing = .ok found ∧
        found.filter (accepts options) = accepted.map (Leaf.pathBelow root) ∧
        accepted.Perm (leaves.filter (Leaf.isAccepted options.includeTests)) := by
  obtain ⟨found, isListed, perm⟩ := lists
  -- The leaves are put in the order in which the walk has found them.
  have keyed : (leaves.map (Leaf.pathBelow root)).Perm (found.map id) := by
    simpa using perm.symm
  obtain ⟨arranged, permLeaves, pairs⟩ := Paired.of_perm_map keyed
  have inOrder : found = arranged.map (Leaf.pathBelow root) := by
    rw [← List.forall₂_eq_eq_eq, List.forall₂_map_right_iff]
    exact pairs.flip.imp fun _ _ same => same.symm
  refine ⟨found, arranged.filter (Leaf.isAccepted options.includeTests), isListed, ?_, ?_⟩
  · rw [inOrder, List.filter_map]
    refine congrArg (List.map _) (List.filter_congr fun leaf member => ?_)
    exact (areFound leaf (permLeaves.mem_iff.mpr member)).accepts options
  · exact permLeaves.symm.filter _

/-- A directory whose tree is plain and belongs to no module. -/
structure IsScanned
    (files : FileSystem)
    (root : Path)
    (place : List String)
    (entries : List (String × Entry)) :
    Prop extends files.LeadsTo root place entries where
  areNames : ∀ name ∈ place, IsEntryName name
  arePlain : Entry.ArePlain entries
  moduleFree : files.IsModuleFree place

/-- The leaves that one directory holds. -/
def Leaf.ofDirectory
    (directory : List String)
    (leaves : List Leaf) :
    List Leaf :=
  leaves.filter fun leaf => leaf.directory == directory

/-- A directory holds the leaves that are in it. -/
theorem Leaf.mem_ofDirectory
    {directory : List String}
    {leaves : List Leaf}
    {leaf : Leaf} :
    leaf ∈ ofDirectory directory leaves ↔ leaf ∈ leaves ∧ leaf.directory = directory := by
  simp [ofDirectory]

/-- A unit whose files are those of some leaves that one directory holds. -/
structure SourceUnit.Covers
    (files : FileSystem)
    (root : Path)
    (place : List String)
    (sources : List Leaf)
    (unit : SourceUnit)
    (directory : List String) :
    Prop where
  inhabited : ∃ leaf ∈ sources, leaf.directory = directory
  components : unit.path.components = root.components ++ directory.map .normal
  located : files.locate unit.path = .ok (place ++ directory)
  files :
    unit.files =
      (sources.filter fun leaf => leaf.directory == directory).map (Leaf.pathBelow root)
  several : unit.singleFile = false
  outside : unit.importPath = none

/-- A tree in a directory of a tree without modules has no modules either. -/
theorem FileSystem.IsModuleFree.below
    {files : FileSystem}
    {place : List String}
    (free : files.IsModuleFree place)
    (directory : List String) :
    files.IsModuleFree (place ++ directory) := by
  intro other around
  refine free other ?_
  rcases around with isOuter | isInner
  · exact List.prefix_or_prefix_of_prefix isOuter (List.prefix_append place directory)
  · exact .inr ((List.prefix_append place directory).trans isInner)

namespace IsScanned

variable
  {files : FileSystem}
  {root : Path}
  {place : List String}
  {entries : List (String × Entry)}

/-- Every leaf of a scanned tree is found. -/
theorem isFound
    (scanned : IsScanned files root place entries)
    {leaf : Leaf}
    (member : leaf ∈ Entry.leavesOf [] entries) :
    leaf.IsFound files root place :=
  scanned.toLeadsTo.isFound scanned.arePlain.areNamed member

/-- The accepted leaves are some of the leaves. -/
theorem isFound_source
    (scanned : IsScanned files root place entries)
    {includeTests : Bool}
    {leaf : Leaf}
    (member : leaf ∈ Entry.sources includeTests entries) :
    leaf.IsFound files root place :=
  scanned.isFound (List.mem_of_mem_filter (List.mem_mergeSort.mp member))

/-- Different leaves of the tree have different names when those of its sources do. -/
theorem nodup_sources
    (distinct : ((Entry.leavesOf [] entries).map Leaf.name).Nodup)
    (includeTests : Bool) :
    ((Entry.sources includeTests entries).map Leaf.name).Nodup := by
  refine ((List.mergeSort_perm _ _).map Leaf.name).nodup_iff.mpr ?_
  exact distinct.sublist (List.filter_sublist.map Leaf.name)

/-- The walk finds the accepted leaves. -/
theorem exists_found
    (scanned : IsScanned files root place entries)
    {options : WalkOptions}
    (reaches : options.recursive ∨ ∀ entry ∈ entries, ∃ content, entry.2 = .file content) :
    ∃ (found : List Path) (accepted : List Leaf),
      Walk.filesBelow files options root place = .ok found ∧
        found.filter (Walk.accepts options) = accepted.map (Leaf.pathBelow root) ∧
        accepted.Perm (Entry.sources options.includeTests entries) := by
  have lists :
      Walk.Lists (Walk.filesBelow files options root place)
        ((Entry.leavesOf [] entries).map (Leaf.pathBelow root)) := by
    simp only [Walk.filesBelow, Walk.directory, scanned.atPlace, Option.map_some, Option.getD_some,
      Entry.entries]
    rcases reaches with recursive | areFiles
    · obtain ⟨parts, pairs, flattened⟩ :=
        Walk.lists_belowEach files (Walk.directory files options files.root.directoryCount)
          recursive root entries [place] place [] fun _ => scanned.arePlain
      exact flattened ▸ Walk.lists_inNameOrder pairs
    · obtain ⟨parts, pairs, flattened⟩ :=
        Walk.lists_belowEach_files files options
          (Walk.directory files options files.root.directoryCount) [place] root place entries
          areFiles
      exact flattened ▸ Walk.lists_inNameOrder pairs
  obtain ⟨found, accepted, isFound, areAccepted, perm⟩ :=
    lists.exists_accepted (fun _ member => scanned.isFound member) options
  exact ⟨found, accepted, isFound, areAccepted, perm.trans (List.mergeSort_perm _ _).symm⟩

/-- The accepted leaves of a directory, by their paths, are in the order of their names. -/
theorem mergeSort_ofDirectory
    (scanned : IsScanned files root place entries)
    (distinct : ((Entry.leavesOf [] entries).map Leaf.name).Nodup)
    {includeTests : Bool}
    {accepted : List Leaf}
    (perm : accepted.Perm (Entry.sources includeTests entries))
    (directory : List String) :
    ((Leaf.ofDirectory directory accepted).map (Leaf.pathBelow root)).mergeSort Path.notAfter =
      (Leaf.ofDirectory directory (Entry.sources includeTests entries)).map
        (Leaf.pathBelow root) := by
  have byName :
      (Leaf.ofDirectory directory accepted).mergeSort Leaf.notAfter =
        Leaf.ofDirectory directory (Entry.sources includeTests entries) := by
    refine Leaf.mergeSort_eq_of_perm ?_ (perm.filter _) ?_
    · have distinctNames := (perm.map Leaf.name).nodup_iff.mpr
        (nodup_sources distinct includeTests)
      exact distinctNames.sublist (List.filter_sublist.map Leaf.name)
    · exact (Leaf.pairwise_mergeSort _).filter _
  rw [← byName]
  refine (List.map_mergeSort fun first inFirst second inSecond => ?_).symm
  obtain ⟨firstMember, firstHere⟩ := Leaf.mem_ofDirectory.mp inFirst
  obtain ⟨secondMember, secondHere⟩ := Leaf.mem_ofDirectory.mp inSecond
  have firstFound := scanned.isFound_source (perm.mem_iff.mp firstMember)
  have secondFound := scanned.isFound_source (perm.mem_iff.mp secondMember)
  exact (firstFound.notAfter secondFound (secondHere.trans firstHere.symm)).symm

/-- The unit of a directory with some accepted leaves. -/
theorem covers_directory
    (scanned : IsScanned files root place entries)
    (distinct : ((Entry.leavesOf [] entries).map Leaf.name).Nodup)
    {includeTests : Bool}
    {accepted : List Leaf}
    (perm : accepted.Perm (Entry.sources includeTests entries))
    {leaf : Leaf}
    (member : leaf ∈ accepted)
    {directory : Path}
    (same : directory.same (Walk.directoryOf root (leaf.pathBelow root)))
    (located : files.locate directory = .ok (place ++ leaf.directory)) :
    (SourceUnit.directory directory
      ((accepted.map (Leaf.pathBelow root)).filter fun file =>
        directory.same (Walk.directoryOf root file))).Covers
      files root place (Entry.sources includeTests entries) leaf.directory := by
  have isFound (leaf : Leaf) (member : leaf ∈ accepted) : leaf.IsFound files root place :=
    scanned.isFound_source (perm.mem_iff.mp member)
  have back (leaf : Leaf) (member : leaf ∈ accepted) :
      (Walk.directoryOf root (leaf.pathBelow root)).components =
        root.components ++ leaf.directory.map .normal :=
    ((isFound leaf member).directoryOf scanned.notEmpty).1
  have components : directory.components = root.components ++ leaf.directory.map .normal :=
    (Path.same_iff.mp same).trans (back leaf member)
  have together (other : Leaf) (otherMember : other ∈ accepted) :
      directory.same (Walk.directoryOf root (other.pathBelow root)) =
        (other.directory == leaf.directory) := by
    rw [Bool.eq_iff_iff, Path.same_iff, components, back other otherMember, beq_iff_eq,
      List.append_cancel_left_eq, List.map_inj_right fun _ _ => Component.normal.inj]
    exact eq_comm
  have sorted := scanned.mergeSort_ofDirectory distinct perm leaf.directory
  refine
    { inhabited := ⟨leaf, perm.mem_iff.mp member, rfl⟩
      components
      located
      files := ?_
      several := rfl
      outside := rfl }
  rw [SourceUnit.directory, List.filter_map]
  refine Eq.trans ?_ sorted
  exact congrArg (fun leaves => (List.map (Leaf.pathBelow root) leaves).mergeSort Path.notAfter)
    (List.filter_congr together)

/-- Each unit of the walk is that of a directory, and each accepted leaf has its unit. -/
theorem covers_units
    (scanned : IsScanned files root place entries)
    (distinct : ((Entry.leavesOf [] entries).map Leaf.name).Nodup)
    {includeTests : Bool}
    {accepted : List Leaf}
    (perm : accepted.Perm (Entry.sources includeTests entries)) :
    let units := Walk.units root (accepted.map (Leaf.pathBelow root))
    let Covers := SourceUnit.Covers files root place (Entry.sources includeTests entries)
    (∀ unit ∈ units, ∃ leaf ∈ accepted, Covers unit leaf.directory) ∧
      ∀ leaf ∈ accepted, ∃ unit ∈ units, Covers unit leaf.directory := by
  intro units Covers
  have back (leaf : Leaf) (member : leaf ∈ accepted) :=
    (scanned.isFound_source (perm.mem_iff.mp member)).directoryOf scanned.notEmpty
  have spelled :
      ∀ directory ∈ Walk.distinct
          ((accepted.map (Leaf.pathBelow root)).map (Walk.directoryOf root)),
        ∃ leaf ∈ accepted, Walk.directoryOf root (leaf.pathBelow root) = directory := by
    intro directory isDistinct
    simpa using Walk.mem_of_mem_distinct isDistinct
  constructor
  · intro unit member
    obtain ⟨directory, listed, rfl⟩ := List.mem_map.mp member
    obtain ⟨leaf, inAccepted, rfl⟩ := spelled directory (List.mem_mergeSort.mp listed)
    exact ⟨leaf, inAccepted, scanned.covers_directory distinct perm inAccepted
      (Path.same_iff.mpr rfl) (back leaf inAccepted).2⟩
  · intro leaf inAccepted
    have listed :
        Walk.directoryOf root (leaf.pathBelow root) ∈
          (accepted.map (Leaf.pathBelow root)).map (Walk.directoryOf root) :=
      List.mem_map_of_mem (List.mem_map_of_mem inAccepted)
    obtain ⟨directory, isDistinct, same⟩ := Walk.exists_distinct_same listed
    obtain ⟨first, firstAccepted, rfl⟩ := spelled directory isDistinct
    -- The first leaf of the same directory spells the path of the unit.
    have together : first.directory = leaf.directory := by
      have components := Path.same_iff.mp same
      rw [(back first firstAccepted).1, (back leaf inAccepted).1,
        List.append_cancel_left_eq] at components
      exact List.map_injective_iff.mpr (fun _ _ => Component.normal.inj) components
    refine ⟨_, List.mem_map_of_mem (List.mem_mergeSort.mpr isDistinct), ?_⟩
    exact scanned.covers_directory distinct perm inAccepted same
      (together ▸ (back first firstAccepted).2)

/-- No unit of a tree outside of modules gets an import path. -/
theorem withImportPaths_fst
    (scanned : IsScanned files root place entries)
    {units : List SourceUnit}
    (covered :
      ∀ unit ∈ units, ∃ leaf ∈ Entry.leavesOf [] entries, ∃ sources,
        SourceUnit.Covers files root place sources unit leaf.directory) :
    ∀ cache : ModuleCache, cache.KnowsNone → (Walk.withImportPaths files cache units).1 = units := by
  induction units with
  | nil => exact fun _ _ => rfl
  | cons unit rest inductionHypothesis =>
      intro cache knowsNone
      obtain ⟨⟨leaf, member, sources, covers⟩, restCovered⟩ := List.forall_mem_cons.mp covered
      have found := scanned.isFound member
      obtain ⟨siblings, leads, _⟩ := found.inDirectory
      have areNames : ∀ name ∈ place ++ leaf.directory, IsEntryName name := by
        intro name inPlace
        rcases List.mem_append.mp inPlace with above | below
        · exact scanned.areNames name above
        · exact found.areNames name below
      have sourceDirectory : unit.sourceDirectory = unit.path := by
        simp [SourceUnit.sourceDirectory, covers.several]
      obtain ⟨noPath, stillNone⟩ :=
        ModuleCache.importPath_of_isModuleFree knowsNone covers.located leads.atPlace areNames
          (scanned.moduleFree.below leaf.directory)
      have unchanged : { unit with importPath := none } = unit := by
        rw [← covers.outside]
      simp only [Walk.withImportPaths, sourceDirectory, noPath, unchanged,
        inductionHypothesis restCovered _ stillNone]

/-- The walk of a scanned tree finds one unit for each directory with accepted leaves. -/
theorem exists_units
    (scanned : IsScanned files root place entries)
    (distinct : ((Entry.leavesOf [] entries).map Leaf.name).Nodup)
    {options : WalkOptions}
    (reaches : options.recursive ∨ ∀ entry ∈ entries, ∃ content, entry.2 = .file content) :
    ∃ units warnings, Walk.unitsAt files options root = .ok (units, warnings) ∧
      (∀ unit ∈ units, ∃ directory,
        SourceUnit.Covers files root place (Entry.sources options.includeTests entries) unit
          directory) ∧
      ∀ leaf ∈ Entry.sources options.includeTests entries, ∃ unit ∈ units,
        SourceUnit.Covers files root place (Entry.sources options.includeTests entries) unit
          leaf.directory := by
  obtain ⟨found, accepted, listed, areAccepted, perm⟩ := scanned.exists_found reaches
  obtain ⟨covered, covering⟩ := scanned.covers_units distinct perm
  have kept := scanned.withImportPaths_fst (fun unit member =>
    have ⟨leaf, inAccepted, covers⟩ := covered unit member
    have isLeaf := List.mem_of_mem_filter (List.mem_mergeSort.mp (perm.mem_iff.mp inAccepted))
    ⟨leaf, isLeaf, _, covers⟩) [] (by simp [ModuleCache.KnowsNone])
  have below :
      Walk.unitsBelow files options root place =
        .ok (Walk.withImportPaths files []
          (Walk.units root (found.filter (Walk.accepts options)))) := by
    simp only [Walk.unitsBelow, listed]
    rfl
  rw [areAccepted] at below
  refine ⟨Walk.units root (accepted.map (Leaf.pathBelow root)), (Walk.withImportPaths files []
    (Walk.units root (accepted.map (Leaf.pathBelow root)))).2, ?_, ?_, ?_⟩
  · simp only [Walk.unitsAt, scanned.located, scanned.atPlace, Option.any_some, Entry.isDirectory,
      ↓reduceIte, below]
    exact congrArg Except.ok (Prod.ext kept rfl)
  · intro unit member
    obtain ⟨leaf, _, covers⟩ := covered unit member
    exact ⟨leaf.directory, covers⟩
  · intro leaf isSource
    exact covering leaf (perm.mem_iff.mpr isSource)

end IsScanned

end Implementers
