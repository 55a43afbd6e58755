import Implementers.Proofs.Files.Scans

namespace Implementers

/-!
# The units of a walk partition the source files

A walk that does not follow links puts each source file below its root into one unit, that of the
directory which holds the file.  No unit has any other file, and none is empty.  The units stand in
the order of their paths, and so do the files of each unit; these orders are strict, since no
directory has two units and no file is listed twice.
-/

/-! ## The order of paths -/

namespace Component

theorem order_swap
    (left right : Component) :
    left.order right = (right.order left).swap := by
  cases left <;> cases right
  all_goals first | rfl | exact @Std.OrientedCmp.eq_swap _ compare _ _ _

instance : Std.OrientedCmp order where
  eq_swap := order_swap _ _

instance : Std.TransCmp order where
  isLE_trans {first second third} earlier later := by
    cases first <;> cases second <;> cases third
    all_goals first
      | exact @Std.TransCmp.isLE_trans _ compare _ _ _ _ earlier later
      | exact absurd earlier Bool.false_ne_true
      | exact absurd later Bool.false_ne_true
      | rfl

instance : Std.LawfulEqCmp order where
  compare_self {component} := by
    cases component <;> simp [order]
  eq_of_compare {left right} level := by
    cases left <;> cases right
    all_goals first
      | rfl
      | exact congrArg normal (@Std.LawfulEqCmp.eq_of_compare _ compare _ _ _ level)
      | exact absurd level (by simp [order, rank])

end Component

namespace Path

/-- Lists of components are ordered as the library orders lists. -/
theorem orderComponents_eq :
    orderComponents = List.compareLex Component.order := by
  funext left right
  induction left generalizing right with
  | nil => cases right <;> rfl
  | cons component rest inductionHypothesis =>
      rcases right with _ | ⟨other, others⟩
      · rfl
      · rw [List.compareLex_cons_cons, orderComponents, inductionHypothesis]
        cases component.order other <;> rfl

theorem order_eq
    (left right : Path) :
    left.order right = List.compareLex Component.order left.components right.components := by
  rw [order, orderComponents_eq]

instance : Std.TransCmp order where
  eq_swap {left right} := by
    rw [order_eq, order_eq]
    exact Std.OrientedCmp.eq_swap
  isLE_trans earlier later := by
    rw [order_eq] at *
    exact Std.TransCmp.isLE_trans earlier later

/-- Of two paths that are not the same, the one that does not come after the other comes before. -/
theorem order_eq_lt
    {left right : Path}
    (before : left.notAfter right)
    (differ : ¬left.same right) :
    left.order right = .lt := by
  rw [notAfter, bne_iff_ne] at before
  rcases compared : left.order right with _ | _ | _
  · rfl
  · rw [order_eq] at compared
    exact absurd (same_iff.mpr (Std.LawfulEqCmp.eq_of_compare compared)) differ
  · exact absurd compared before

/-- Sorted paths of which no two are the same come one before the other. -/
theorem pairwise_mergeSort
    {paths : List Path}
    (apart : paths.Pairwise fun left right => ¬left.same right) :
    (paths.mergeSort notAfter).Pairwise fun left right => left.order right = .lt := by
  have sorted := Sorting.pairwise order paths
  have stillApart :
      (paths.mergeSort notAfter).Pairwise fun left right => ¬left.same right := by
    refine (List.mergeSort_perm _ _).symm.pairwise apart fun differ same => differ ?_
    exact same_iff.mpr (same_iff.mp same).symm
  exact sorted.imp₂ (fun _ _ before differ => order_eq_lt before differ) stillApart

end Path

/-! ## Names of source files -/

/-- Whether a name is that of a source file: something in front of its ending. -/
def IsSourceName
    (name : String) :
    Prop :=
  ∃ stem, stem ≠ [] ∧ name.toList = stem ++ ".go".toList

/-- Whether a name is that of a test file. -/
def IsTestName
    (name : String) :
    Prop :=
  "_test.go".toList <:+ name.toList

namespace Text

/-- Texts with the same segments are the same. -/
theorem segments_injective
    {separator : Char}
    {left right : List Char}
    (same : segments separator left = segments separator right) :
    left = right := by
  have rejoined (text : List Char) :
      [separator].intercalate (segments separator text) = text := by
    rw [segments_eq_splitOn]
    exact List.intercalate_splitOn separator
  rw [← rejoined left, same, rejoined]

end Text

/-- A file is a source file exactly when its name is that of one. -/
theorem isSourceFile_iff
    {path : Path}
    {name : String}
    (named : path.fileName? = some name) :
    isSourceFile path ↔ IsSourceName name := by
  have ending : Text.segments '.' "go".toList = ["go".toList] := by decide
  have cut (stem : List Char) :
      Text.segments '.' (stem ++ ".go".toList) = Text.segments '.' stem ++ ["go".toList] := by
    rw [← ending]
    exact Text.segments_append '.' stem "go".toList
  simp only [isSourceFile, Path.extension?, named, Option.bind_some, beq_iff_eq]
  constructor
  · intro isExtension
    split at isExtension
    · cases isExtension
    · cases isExtension
    · cases isExtension
    · next extension before single hidden spelled =>
        obtain rfl : extension = "go".toList := by
          rw [← String.toList_ofList (l := extension), Option.some.inj isExtension]
        have spelled : Text.segments '.' name.toList = before.reverse ++ ["go".toList] := by
          rw [← List.reverse_reverse (Text.segments '.' name.toList), spelled, List.reverse_cons]
        have some : before.reverse ≠ [] := fun none => single (by simpa using none)
        have stems : Text.segments '.' (['.'].intercalate before.reverse) = before.reverse := by
          apply Text.segments_intercalate some
          intro part member
          refine @Text.not_mem_of_mem_segments '.' name.toList part ?_
          rw [spelled]
          exact List.mem_append_left _ member
        refine ⟨['.'].intercalate before.reverse, ?_, ?_⟩
        · intro empty
          rw [empty] at stems
          exact hidden (by simpa [Text.segments] using stems.symm)
        · apply @Text.segments_injective '.'
          rw [spelled, cut, stems]
  · rintro ⟨stem, some, spelled⟩
    rw [spelled, cut, List.reverse_append, List.reverse_singleton, List.singleton_append]
    split
    · next none => cases none
    · next single =>
        have none := (List.cons.inj single).2
        exact absurd (List.reverse_eq_nil_iff.mp none) (Text.segments_ne_nil '.' stem)
    · next hidden =>
        have empty : Text.segments '.' stem = Text.segments '.' [] := by
          simpa [Text.segments] using (List.cons.inj hidden).2
        exact absurd (Text.segments_injective empty) some
    · next isExtension =>
        rw [← (List.cons.inj isExtension).1]
        rfl

/-- A file is a test file exactly when its name is that of one. -/
theorem isTestFile_iff
    {path : Path}
    {name : String}
    (named : path.fileName? = some name) :
    isTestFile path ↔ IsTestName name := by
  rw [isTestFile, named, Option.any_some, List.isSuffixOf_iff_suffix, IsTestName]

/-! ## Leaves by their places -/

namespace Entry

mutual

/-- The leaves at or below an entry are the files that it has at their places. -/
theorem mem_leaves_iff
    {leaf : Leaf}
    {directory : List String}
    {name : String} :
    ∀ (entry : Entry),
      entry.IsNamed →
        (leaf ∈ entry.leaves directory name ↔
          ∃ names, leaf.directory ++ [leaf.name] = directory ++ name :: names ∧
            entry.at? names = some (.file leaf.content))
  | .file content, _ => by
      rw [leaves, List.mem_singleton]
      constructor
      · rintro rfl
        exact ⟨[], rfl, rfl⟩
      · rintro ⟨names, place, isFile⟩
        rcases names with _ | ⟨other, names⟩
        · obtain ⟨rfl, isName⟩ := List.append_inj' place rfl
          obtain rfl := List.singleton_inj.mp isName
          obtain rfl := Entry.file.inj (Option.some.inj isFile)
          rfl
        · cases isFile
  | .directory entries, isNamed => by
      rw [leaves, mem_leavesOf_iff entries isNamed]
      simp only [List.append_assoc, List.singleton_append]
  | .link _, _ => by
      rw [leaves]
      constructor
      · intro member
        cases member
      · rintro ⟨names, _, isFile⟩
        rcases names with _ | ⟨other, names⟩
        · cases isFile
        · cases isFile

/-- The leaves at or below the entries of a directory are the files that it has at their places. -/
theorem mem_leavesOf_iff
    {leaf : Leaf}
    {directory : List String} :
    ∀ (entries : List (String × Entry)),
      AreNamed entries →
        (leaf ∈ leavesOf directory entries ↔
          ∃ names, leaf.directory ++ [leaf.name] = directory ++ names ∧
            (Entry.directory entries).at? names = some (.file leaf.content))
  | [], _ => by
      rw [leavesOf]
      constructor
      · intro member
        cases member
      · rintro ⟨names, _, isFile⟩
        rcases names with _ | ⟨other, names⟩
        · cases isFile
        · cases isFile
  | (name, entry) :: rest, ⟨⟨_, absent⟩, isNamed, areNamed⟩ => by
      rw [leavesOf, List.mem_append, mem_leaves_iff entry isNamed, mem_leavesOf_iff rest areNamed]
      have first (names : List String) :
          (Entry.directory ((name, entry) :: rest)).at? (name :: names) = entry.at? names := by
        simp [at?, Entry.entries]
      have later {other : String} (differs : other ≠ name) (names : List String) :
          (Entry.directory ((name, entry) :: rest)).at? (other :: names) =
            (Entry.directory rest).at? (other :: names) := by
        simp [at?, Entry.entries, List.lookup_cons, beq_false_of_ne differs]
      constructor
      · rintro (⟨names, place, isFile⟩ | ⟨names, place, isFile⟩)
        · exact ⟨name :: names, place, (first names).trans isFile⟩
        · refine ⟨names, place, ?_⟩
          rcases names with _ | ⟨other, names⟩
          · cases isFile
          · have differs : other ≠ name := by
              rintro rfl
              simp [at?, Entry.entries, absent] at isFile
            exact (later differs names).trans isFile
      · rintro ⟨names, place, isFile⟩
        rcases names with _ | ⟨other, names⟩
        · cases isFile
        · by_cases same : other = name
          · subst same
            exact .inl ⟨names, place, (first names).symm.trans isFile⟩
          · exact .inr ⟨other :: names, place, (later same names).symm.trans isFile⟩

end

mutual

/-- No leaf at or below an entry is listed twice. -/
theorem nodup_leaves
    {directory : List String}
    {name : String} :
    ∀ (entry : Entry), entry.IsNamed → (entry.leaves directory name).Nodup
  | .file _, _ => List.nodup_singleton _
  | .directory entries, isNamed => nodup_leavesOf entries isNamed
  | .link _, _ => List.nodup_nil

/-- No leaf at or below the entries of a directory is listed twice. -/
theorem nodup_leavesOf
    {directory : List String} :
    ∀ (entries : List (String × Entry)), AreNamed entries → (leavesOf directory entries).Nodup
  | [], _ => List.nodup_nil
  | (name, entry) :: rest, ⟨⟨_, absent⟩, isNamed, areNamed⟩ => by
      refine (nodup_leaves entry isNamed).append (nodup_leavesOf rest areNamed) ?_
      intro leaf inFirst inRest
      obtain ⟨names, place, _⟩ := (mem_leaves_iff entry isNamed).mp inFirst
      obtain ⟨others, samePlace, isFile⟩ := (mem_leavesOf_iff rest areNamed).mp inRest
      rw [place, List.append_cancel_left_eq] at samePlace
      rw [← samePlace] at isFile
      simp [at?, Entry.entries, absent] at isFile

end

/-- The leaves of a directory that a walk reaches: all of them, or those in the directory itself. -/
def reached
    (recursive : Bool)
    (entries : List (String × Entry)) :
    List Leaf :=
  (leavesOf [] entries).filter fun leaf => recursive || leaf.directory.isEmpty

end Entry

namespace Walk

/-- The files in a directory are listed if the walk does not go further. -/
theorem lists_belowEach_near
    (files : FileSystem)
    {options : WalkOptions}
    (jump : Jump)
    (chain : Chain)
    (root : Path)
    (place : List String)
    (flat : options.recursive = false)
    (aside : options.followLinks = false) :
    ∀ entries : List (String × Entry),
      Entry.AreNamed entries →
      ∃ parts,
        List.Forall₂ (fun entry paths => Lists entry.2 paths)
          (belowEach files options jump chain root place entries) parts ∧
        parts.flatten = (Entry.reached false entries).map (Leaf.pathBelow root)
  | [], _ => ⟨[], .nil, rfl⟩
  | (name, entry) :: rest, ⟨_, isNamed, areNamed⟩ => by
      obtain ⟨parts, pairs, flattened⟩ :=
        lists_belowEach_near files jump chain root place flat aside rest areNamed
      have goesOn (leaves : List Leaf)
          (here : (entry.leaves [] name).filter (fun leaf => leaf.directory.isEmpty) = leaves) :
          leaves.map (Leaf.pathBelow root) ++ parts.flatten =
            (Entry.reached false ((name, entry) :: rest)).map (Leaf.pathBelow root) := by
        rw [flattened, Entry.reached, Entry.reached, Entry.leavesOf, List.filter_append,
          List.map_append, ← here]
        rfl
      rcases entry with content | entries | target
      · exact ⟨[root.join name] :: parts, .cons ⟨_, rfl, .refl _⟩ pairs, goesOn _ rfl⟩
      · refine ⟨[] :: parts, .cons ⟨[], ?_, .refl _⟩ pairs, goesOn [] ?_⟩
        · simp only [below, flat, Bool.false_eq_true, ↓reduceIte]
        · -- What is in a directory of the directory has the name of that in its place.
          refine List.filter_eq_nil_iff.mpr fun leaf member isNear => ?_
          obtain ⟨names, place, isFile⟩ := (Entry.mem_leavesOf_iff entries isNamed).mp member
          rw [List.isEmpty_iff.mp isNear] at place
          obtain ⟨_, rfl⟩ := List.cons.inj place
          cases isFile
      · refine ⟨[] :: parts, .cons ⟨[], ?_, .refl _⟩ pairs, goesOn [] rfl⟩
        simp only [below, aside, Bool.false_eq_true, ↓reduceIte]

end Walk

section

variable
  {files : FileSystem}
  {root : Path}
  {place : List String}
  {entries : List (String × Entry)}
  {options : WalkOptions}

/-- A walk lists the leaves that it reaches. -/
theorem FileSystem.LeadsTo.lists_filesBelow
    (leads : files.LeadsTo root place entries)
    (areNamed : Entry.AreNamed entries)
    (aside : options.followLinks = false) :
    Walk.Lists (Walk.filesBelow files options root place)
      ((Entry.reached options.recursive entries).map (Leaf.pathBelow root)) := by
  simp only [Walk.filesBelow, Walk.directory, leads.atPlace, Option.map_some, Option.getD_some,
    Entry.entries]
  by_cases recursive : options.recursive = true
  · obtain ⟨parts, pairs, flattened⟩ :=
      Walk.lists_belowEach files (Walk.directory files options files.root.directoryCount)
        recursive root entries [place] place [] fun follows => by
          rw [aside] at follows
          cases follows
    have everywhere : Entry.reached options.recursive entries = Entry.leavesOf [] entries := by
      simp [Entry.reached, recursive]
    rw [everywhere, ← flattened]
    exact Walk.lists_inNameOrder pairs
  · have flat := eq_false_of_ne_true recursive
    obtain ⟨parts, pairs, flattened⟩ :=
      Walk.lists_belowEach_near files (Walk.directory files options files.root.directoryCount)
        [place] root place flat aside entries areNamed
    rw [flat, ← flattened]
    exact Walk.lists_inNameOrder pairs

end

/-! ## Partition -/

/-- A source file below the place of a root that a walk has to put into a unit. -/
structure Leaf.IsSought
    (files : FileSystem)
    (place : List String)
    (options : WalkOptions)
    (leaf : Leaf) :
    Prop where
  atPlace :
    files.root.at? (place ++ (leaf.directory ++ [leaf.name])) = some (.file leaf.content)
  near : options.recursive = false → leaf.directory = []
  isSource : IsSourceName leaf.name
  isOrdinary : options.includeTests = false → ¬IsTestName leaf.name

/-- A unit whose path is that of the directory which holds a leaf, with the leaf among its files. -/
structure SourceUnit.Holds
    (files : FileSystem)
    (root : Path)
    (place : List String)
    (unit : SourceUnit)
    (leaf : Leaf) :
    Prop where
  path : unit.path.components = root.components ++ leaf.directory.map .normal
  located : files.locate unit.path = .ok (place ++ leaf.directory)
  listed : leaf.pathBelow root ∈ unit.files
  leads : files.locate (leaf.pathBelow root) = .ok (place ++ (leaf.directory ++ [leaf.name]))

/-- Units that partition the source files below a root, in the order of their paths. -/
structure Walk.Partitions
    (files : FileSystem)
    (root : Path)
    (place : List String)
    (options : WalkOptions)
    (units : List SourceUnit) :
    Prop where
  /-- Each source file is in one unit, that of its directory, and in no other. -/
  covered :
    ∀ leaf : Leaf, leaf.IsSought files place options →
      ∃ unit ∈ units, unit.Holds files root place leaf ∧
        ∀ other ∈ units, leaf.pathBelow root ∈ other.files → other = unit
  /-- No unit is empty. -/
  inhabited : ∀ unit ∈ units, unit.files ≠ []
  /-- No unit has a file that is no source file of its directory. -/
  only :
    ∀ unit ∈ units, ∀ file ∈ unit.files, ∃ leaf : Leaf,
      leaf.IsSought files place options ∧ unit.Holds files root place leaf ∧
        file = leaf.pathBelow root
  /-- The paths of the units increase. -/
  unitOrder : units.Pairwise fun left right => left.path.order right.path = .lt
  /-- The files of a unit increase. -/
  fileOrder : ∀ unit ∈ units, unit.files.Pairwise fun left right => left.order right = .lt

section

variable
  {files : FileSystem}
  {root : Path}
  {place : List String}
  {entries : List (String × Entry)}
  {options : WalkOptions}

/-- What a walk has to put into units are the accepted leaves that it reaches. -/
theorem FileSystem.LeadsTo.isSought_iff
    (leads : files.LeadsTo root place entries)
    (areNamed : Entry.AreNamed entries)
    (leaf : Leaf) :
    leaf.IsSought files place options ↔
      leaf ∈ (Entry.reached options.recursive entries).filter
        (Leaf.isAccepted options.includeTests) := by
  have inTree : files.root.at? (place ++ (leaf.directory ++ [leaf.name])) =
        some (.file leaf.content) ↔
      leaf ∈ Entry.leavesOf [] entries := by
    rw [Entry.at?_append, leads.atPlace, Option.bind_some,
      Entry.mem_leavesOf_iff entries areNamed]
    simp
  have accepted (member : leaf ∈ Entry.leavesOf [] entries) :
      leaf.isAccepted options.includeTests = true ↔
        IsSourceName leaf.name ∧ (options.includeTests = false → ¬IsTestName leaf.name) := by
    have named := Path.fileName?_name (leads.isFound areNamed member).isName
    rw [Leaf.isAccepted, Bool.and_eq_true, isSourceFile_iff named, ← isTestFile_iff named]
    cases options.includeTests <;> simp
  simp only [List.mem_filter, Entry.reached, Bool.or_eq_true, List.isEmpty_iff]
  constructor
  · intro sought
    have member := inTree.mp sought.atPlace
    refine ⟨⟨member, ?_⟩, (accepted member).mpr ⟨sought.isSource, sought.isOrdinary⟩⟩
    by_cases recursive : options.recursive = true
    · exact .inl recursive
    · exact .inr (sought.near (eq_false_of_ne_true recursive))
  · rintro ⟨⟨member, reaches⟩, isAccepted⟩
    obtain ⟨isSource, isOrdinary⟩ := (accepted member).mp isAccepted
    refine ⟨inTree.mpr member, fun flat => ?_, isSource, isOrdinary⟩
    rcases reaches with recursive | near
    · rw [flat] at recursive
      cases recursive
    · exact near

/-- The path of a leaf that is found leads to its place. -/
theorem Leaf.IsFound.locate
    {leaf : Leaf}
    (found : leaf.IsFound files root place) :
    files.locate (leaf.pathBelow root) = .ok (place ++ (leaf.directory ++ [leaf.name])) := by
  obtain ⟨siblings, leads, isFile⟩ := found.inDirectory
  have located := (leads.locate_join found.isName isFile (by rintro _ ⟨⟩)).1
  rwa [List.append_assoc] at located

/-- Leaves that are found at the same path are the same. -/
theorem Leaf.IsFound.unique
    {left right : Leaf}
    (notEmpty : root.text ≠ "")
    (leftFound : left.IsFound files root place)
    (rightFound : right.IsFound files root place)
    (same : (left.pathBelow root).same (right.pathBelow root)) :
    left.directory = right.directory ∧ left.name = right.name := by
  have components {leaf : Leaf} (found : leaf.IsFound files root place) :
      (leaf.pathBelow root).components =
        root.components ++ (leaf.directory ++ [leaf.name]).map .normal := by
    obtain ⟨siblings, leads, _⟩ := found.inDirectory
    rw [Leaf.pathBelow, Path.components_join leads.notEmpty found.isName, Leaf.directoryBelow,
      Path.components_foldl_join found.areNames notEmpty, List.map_append, List.append_assoc]
    rfl
  rw [Path.same_iff, components leftFound, components rightFound, List.append_cancel_left_eq,
    List.map_inj_right fun _ _ => Component.normal.inj] at same
  obtain ⟨sameDirectory, sameName⟩ := List.append_inj' same rfl
  exact ⟨sameDirectory, List.singleton_inj.mp sameName⟩

/-- The unit that the first leaf of a directory spells the path of holds each leaf of it. -/
theorem SourceUnit.holds_directory
    (notEmpty : root.text ≠ "")
    {accepted : List Leaf}
    (areFound : ∀ leaf ∈ accepted, leaf.IsFound files root place)
    {first leaf : Leaf}
    (isFirst : first ∈ accepted)
    (member : leaf ∈ accepted)
    (same : (Walk.directoryOf root (first.pathBelow root)).same
      (Walk.directoryOf root (leaf.pathBelow root))) :
    (SourceUnit.directory (Walk.directoryOf root (first.pathBelow root))
      ((accepted.map (Leaf.pathBelow root)).filter fun file =>
        (Walk.directoryOf root (first.pathBelow root)).same (Walk.directoryOf root file))).Holds
      files root place leaf := by
  obtain ⟨path, located⟩ := (areFound first isFirst).directoryOf notEmpty
  obtain ⟨samePath, _⟩ := (areFound leaf member).directoryOf notEmpty
  have together : first.directory = leaf.directory := by
    have components := Path.same_iff.mp same
    rw [path, samePath, List.append_cancel_left_eq] at components
    exact List.map_injective_iff.mpr (fun _ _ => Component.normal.inj) components
  refine
    { path := together ▸ path
      located := together ▸ located
      listed := ?_
      leads := (areFound leaf member).locate }
  exact List.mem_mergeSort.mpr (List.mem_filter.mpr ⟨List.mem_map_of_mem member, same⟩)

/-- Each directory that is spelled first has its unit. -/
theorem Walk.mem_units
    {found : List Path}
    {directory : Path}
    (isDistinct : directory ∈ distinct (found.map (directoryOf root))) :
    SourceUnit.directory directory
        (found.filter fun file => directory.same (directoryOf root file)) ∈ units root found :=
  List.mem_map_of_mem (List.mem_mergeSort.mpr isDistinct)

/-- Each unit is that of the directory of one of the files. -/
theorem Walk.exists_of_mem_units
    {found : List Path}
    {unit : SourceUnit}
    (member : unit ∈ units root found) :
    ∃ file ∈ found, unit =
      .directory (directoryOf root file)
        (found.filter fun other => (directoryOf root file).same (directoryOf root other)) := by
  obtain ⟨directory, listed, rfl⟩ := List.mem_map.mp member
  have isDistinct := List.mem_mergeSort.mp listed
  obtain ⟨file, isFile, rfl⟩ := List.mem_map.mp (mem_of_mem_distinct isDistinct)
  exact ⟨file, isFile, rfl⟩

/-- The units of some leaves that are found partition these. -/
theorem Walk.partitions_units
    (notEmpty : root.text ≠ "")
    {accepted : List Leaf}
    (areSought : ∀ leaf : Leaf, leaf.IsSought files place options ↔ leaf ∈ accepted)
    (areFound : ∀ leaf ∈ accepted, leaf.IsFound files root place)
    (apart : accepted.Pairwise fun left right =>
      ¬(left.pathBelow root).same (right.pathBelow root)) :
    Partitions files root place options (units root (accepted.map (Leaf.pathBelow root))) := by
  have ofUnit : ∀ unit ∈ units root (accepted.map (Leaf.pathBelow root)),
      ∃ first ∈ accepted, unit =
        .directory (directoryOf root (first.pathBelow root))
          ((accepted.map (Leaf.pathBelow root)).filter fun file =>
            (directoryOf root (first.pathBelow root)).same (directoryOf root file)) := by
    intro unit member
    obtain ⟨file, isFile, rfl⟩ := exists_of_mem_units member
    obtain ⟨first, isFirst, rfl⟩ := List.mem_map.mp isFile
    exact ⟨first, isFirst, rfl⟩
  refine
    { covered := fun leaf sought => ?_
      inhabited := fun unit member => ?_
      only := fun unit member file listed => ?_
      unitOrder := List.pairwise_map.mpr (Path.pairwise_mergeSort (distinct_pairwise _))
      fileOrder := fun unit member => ?_ }
  · have member := (areSought leaf).mp sought
    have isDirectory : directoryOf root (leaf.pathBelow root) ∈
        (accepted.map (Leaf.pathBelow root)).map (directoryOf root) :=
      List.mem_map_of_mem (List.mem_map_of_mem member)
    obtain ⟨directory, isDistinct, same⟩ := exists_distinct_same isDirectory
    have isUnit := mem_units isDistinct
    obtain ⟨path, isPath, rfl⟩ := List.mem_map.mp (mem_of_mem_distinct isDistinct)
    obtain ⟨first, isFirst, rfl⟩ := List.mem_map.mp isPath
    have holds := SourceUnit.holds_directory notEmpty areFound isFirst member same
    refine ⟨_, isUnit, holds, fun other isOther shared => ?_⟩
    exact SourceUnit.eq_of_shared_file (units_pairwise root _) isOther isUnit shared holds.listed
  · obtain ⟨first, isFirst, rfl⟩ := ofUnit unit member
    have holds := SourceUnit.holds_directory notEmpty areFound isFirst isFirst
      (Path.same_iff.mpr rfl)
    exact List.ne_nil_of_mem holds.listed
  · obtain ⟨first, isFirst, rfl⟩ := ofUnit unit member
    obtain ⟨inPaths, same⟩ := List.mem_filter.mp (List.mem_mergeSort.mp listed)
    obtain ⟨leaf, isLeaf, rfl⟩ := List.mem_map.mp inPaths
    exact ⟨leaf, (areSought leaf).mpr isLeaf,
      SourceUnit.holds_directory notEmpty areFound isFirst isLeaf same, rfl⟩
  · obtain ⟨first, _, rfl⟩ := ofUnit unit member
    exact Path.pairwise_mergeSort ((List.pairwise_map.mpr apart).filter _)

/-- Units that differ in their import paths only hold the same leaves. -/
theorem SourceUnit.SameFiles.holds
    {unit other : SourceUnit}
    (alike : unit.SameFiles other)
    {leaf : Leaf}
    (holds : other.Holds files root place leaf) :
    unit.Holds files root place leaf where
  path := alike.path ▸ holds.path
  located := alike.path ▸ holds.located
  listed := alike.files ▸ holds.listed
  leads := holds.leads

/-- Import paths do not change what units partition. -/
theorem Walk.Partitions.of_sameFiles
    {left right : List SourceUnit}
    (same : List.Forall₂ SourceUnit.SameFiles left right)
    (apart : right.Pairwise SourceUnit.Apart)
    (partitions : Partitions files root place options right) :
    Partitions files root place options left := by
  have stillApart := SourceUnit.pairwise_of_sameFiles same apart
  have samePaths : left.map SourceUnit.path = right.map SourceUnit.path := by
    rw [← List.forall₂_eq_eq_eq, List.forall₂_map_left_iff, List.forall₂_map_right_iff]
    exact same.imp fun _ _ alike => alike.path
  refine
    { covered := fun leaf sought => ?_
      inhabited := fun unit member => ?_
      only := fun unit member file listed => ?_
      unitOrder := ?_
      fileOrder := fun unit member => ?_ }
  · obtain ⟨unit, isUnit, holds, _⟩ := partitions.covered leaf sought
    obtain ⟨own, isOwn, alike⟩ := exists_related_left same isUnit
    refine ⟨own, isOwn, alike.holds holds, fun other isOther shared => ?_⟩
    exact SourceUnit.eq_of_shared_file stillApart isOther isOwn shared (alike.holds holds).listed
  · obtain ⟨other, isOther, alike⟩ := exists_related_right same member
    rw [alike.files]
    exact partitions.inhabited other isOther
  · obtain ⟨other, isOther, alike⟩ := exists_related_right same member
    rw [alike.files] at listed
    obtain ⟨leaf, sought, holds, isFile⟩ := partitions.only other isOther file listed
    exact ⟨leaf, sought, alike.holds holds, isFile⟩
  · have inOrder : (right.map SourceUnit.path).Pairwise fun left right => left.order right = .lt :=
      List.pairwise_map.mpr partitions.unitOrder
    rw [← samePaths] at inOrder
    exact List.pairwise_map.mp inOrder
  · obtain ⟨other, isOther, alike⟩ := exists_related_right same member
    rw [alike.files]
    exact partitions.fileOrder other isOther

end

/--
A walk that does not follow links partitions the source files of a tree, whether it starts from a
path or from one that has to be a directory.
-/
theorem Walk.unitsAt_partitions
    {files : FileSystem}
    {root : Path}
    {place : List String}
    {entries : List (String × Entry)}
    (leads : files.LeadsTo root place entries)
    (areNamed : Entry.AreNamed entries)
    {options : WalkOptions}
    (aside : options.followLinks = false) :
    ∃ units warnings,
      unitsAt files options root = .ok (units, warnings) ∧
        unitsInDirectory files options root = .ok (units, warnings) ∧
        Partitions files root place options units := by
  have isFound (leaf : Leaf) (member : leaf ∈ Entry.reached options.recursive entries) :
      leaf.IsFound files root place :=
    leads.isFound areNamed (List.mem_of_mem_filter member)
  obtain ⟨found, accepted, listed, areAccepted, perm⟩ :=
    (leads.lists_filesBelow areNamed aside).exists_accepted isFound options
  have areSought (leaf : Leaf) : leaf.IsSought files place options ↔ leaf ∈ accepted :=
    (leads.isSought_iff areNamed leaf).trans perm.mem_iff.symm
  have areFound (leaf : Leaf) (member : leaf ∈ accepted) : leaf.IsFound files root place :=
    isFound leaf (List.mem_of_mem_filter (perm.mem_iff.mp member))
  have apart : accepted.Pairwise fun left right =>
      ¬(left.pathBelow root).same (right.pathBelow root) := by
    have nodup := perm.nodup_iff.mpr (((Entry.nodup_leavesOf entries areNamed).filter _).filter _)
    refine nodup.pairwise_of_forall_ne fun left isLeft right isRight differ same => differ ?_
    obtain ⟨sameDirectory, sameName⟩ :=
      (areFound left isLeft).unique leads.notEmpty (areFound right isRight) same
    -- One place has one entry, so that the leaves have the same content as well.
    have atLeft := ((areSought left).mpr isLeft).atPlace
    have atRight := ((areSought right).mpr isRight).atPlace
    rw [sameDirectory, sameName, atRight] at atLeft
    have sameContent := Entry.file.inj (Option.some.inj atLeft)
    rcases left with ⟨directory, name, content⟩
    rcases right with ⟨otherDirectory, otherName, otherContent⟩
    obtain rfl : directory = otherDirectory := sameDirectory
    obtain rfl : name = otherName := sameName
    obtain rfl : otherContent = content := sameContent
    rfl
  have partitions := partitions_units leads.notEmpty areSought areFound apart
  have sameFiles :=
    withImportPaths_sameFiles files (units root (accepted.map (Leaf.pathBelow root))) []
  have below :
      unitsBelow files options root place =
        .ok (withImportPaths files [] (units root (accepted.map (Leaf.pathBelow root)))) := by
    simp only [unitsBelow, listed, ← areAccepted]
    rfl
  rcases paths : withImportPaths files [] (units root (accepted.map (Leaf.pathBelow root))) with
    ⟨made, warnings⟩
  rw [paths] at sameFiles below
  refine ⟨made, warnings, ?_, ?_, partitions.of_sameFiles sameFiles (units_pairwise root _)⟩
  · simp only [unitsAt, leads.located, leads.atPlace, Option.any_some, Entry.isDirectory,
      ↓reduceIte, below]
  · simp only [unitsInDirectory, leads.located, leads.atPlace, Option.any_some, Entry.isDirectory,
      ↓reduceIte, below]

/-! A directory with a test file, another directory, and a link to that. -/

namespace Linked

/-- What the directory holds. -/
def entries : List (String × Entry) :=
  [ ("a.go", .file (.text "package p\n")), ("a_test.go", .file (.text "package p\n")),
    ("again", .link ⟨"inner"⟩), ("inner", .directory [("b.go", .file .undecodable)]) ]

/-- A file system with the directory as its working directory. -/
def files : FileSystem :=
  { root := .directory [("w", .directory entries)], workingDirectory := ["w"] }

/-- A walk that passes over test files. -/
def options : WalkOptions :=
  { includeTests := false }

theorem unitsAt_partitions_linked :
    files.LeadsTo ⟨"."⟩ ["w"] entries ∧ Entry.AreNamed entries ∧ options.followLinks = false ∧
      ∃ units warnings,
        Walk.unitsAt files options ⟨"."⟩ = .ok (units, warnings) ∧
          Walk.unitsInDirectory files options ⟨"."⟩ = .ok (units, warnings) ∧
          Walk.Partitions files ⟨"."⟩ ["w"] options units :=
  have leads : files.LeadsTo ⟨"."⟩ ["w"] entries := ⟨by decide +kernel, rfl⟩
  have areNamed : Entry.AreNamed entries := by
    simp [entries, Entry.AreNamed, Entry.IsNamed]
    decide
  ⟨leads, areNamed, rfl, Walk.unitsAt_partitions leads areNamed rfl⟩

end Linked

end Implementers
