import Implementers.Proofs.Files.Descent
import Mathlib.Data.List.Basic

namespace Implementers

/-!
# The nearest module

The import path of a directory is that of the nearest module around it, followed by the names of
the directories in between.  A cache that holds only what a search from each place would find is
never noticed, and asking for import paths keeps it so.  The names below a module can be read off
the import path, so no two directories of one module share one.
-/

/-! ## Names on the way to a place -/

namespace FileSystem

/-- Whether each name of a place stands for itself between the slashes of a path. -/
def AreSteps
    (place : List String) :
    Prop :=
  ∀ name ∈ place, Path.innerComponent? name = some (.normal name) ∧ '/' ∉ name.toList

/-- Whether the places that a route leads to have names that stand for themselves. -/
def KeepsSteps
    (route : Route) :
    Prop :=
  ∀ place segments final, AreSteps place → (∀ segment ∈ segments, '/' ∉ segment.toList) →
    route place segments = .ok final → AreSteps final

/-- A segment that is neither empty nor made of dots stands for itself. -/
theorem innerComponent?_of_ne
    {segment : String}
    (notIdle : ¬(segment == "" || segment == "."))
    (notParent : ¬(segment == "..")) :
    Path.innerComponent? segment = some (.normal segment) := by
  unfold Path.innerComponent?
  split
  · simp at notIdle
  · simp at notIdle
  · simp at notParent
  · rfl

/-- A route keeps to names that stand for themselves when the way on at links does. -/
theorem keepsSteps_of_onward
    {root : Entry}
    {links : Nat}
    (keeps : KeepsSteps (onward root links)) :
    KeepsSteps (follow root links) := by
  intro place segments final steps slashless leads
  rw [follow_eq] at leads
  induction segments generalizing place with
  | nil => exact Except.ok.inj leads ▸ steps
  | cons segment rest inductionHypothesis =>
      obtain ⟨segmentSlashless, restSlashless⟩ := List.forall_mem_cons.mp slashless
      simp only [followTo] at leads
      cases atPlace : root.at? place with
      | none => simp [atPlace] at leads
      | some here =>
          simp only [atPlace] at leads
          split at leads
          · cases leads
          · split at leads
            · exact inductionHypothesis place steps restSlashless leads
            · next notIdle =>
                split at leads
                · exact inductionHypothesis _
                    (fun name member => steps name (List.dropLast_subset place member))
                    restSlashless leads
                · next notParent =>
                    split at leads
                    · cases leads
                    · split at leads
                      · cases leads
                      · next target _ =>
                          refine keeps _ _ final ?_ ?_ leads
                          · split
                            · exact fun name member => absurd member List.not_mem_nil
                            · exact steps
                          · intro other member
                            rcases List.mem_append.mp member with inTarget | inRest
                            · exact Path.slash_not_mem_of_mem_segments inTarget
                            · exact restSlashless other inRest
                      · refine inductionHypothesis _ ?_ restSlashless leads
                        intro name member
                        rcases List.mem_append.mp member with earlier | isSegment
                        · exact steps name earlier
                        · obtain rfl := List.mem_singleton.mp isSegment
                          exact ⟨innerComponent?_of_ne notIdle notParent, segmentSlashless⟩

/-- Every route keeps to names that stand for themselves. -/
theorem keepsSteps_follow
    (root : Entry)
    (links : Nat) :
    KeepsSteps (follow root links) := by
  -- A link's target is cut into segments as a path is, so it brings no other names.
  induction links with
  | zero => exact keepsSteps_of_onward fun _ _ _ _ _ leads => nomatch leads
  | succ links inductionHypothesis => exact keepsSteps_of_onward inductionHypothesis

/-- The names of entries stand for themselves. -/
theorem areSteps_of_names
    {place : List String}
    (areNames : ∀ name ∈ place, IsEntryName name) :
    AreSteps place :=
  fun name member =>
    ⟨Path.innerComponent?_name (areNames name member), (areNames name member).slashless⟩

/-- Every place that a path leads to has names that stand for themselves. -/
theorem areSteps_of_locate
    {files : FileSystem}
    {path : Path}
    {place : List String}
    (areNames : ∀ name ∈ files.workingDirectory, IsEntryName name)
    (located : files.locate path = .ok place) :
    AreSteps place := by
  obtain ⟨-, -, leads⟩ := locate_ok_iff.mp located
  refine keepsSteps_follow files.root linkLimit _ _ place ?_
    (fun _ => Path.slash_not_mem_of_mem_segments) leads
  split
  · exact fun name member => absurd member List.not_mem_nil
  · exact areSteps_of_names areNames

/-- The path of a place has the names on the way there as its components. -/
theorem components_absolutePath
    {place : List String}
    (steps : AreSteps place) :
    (absolutePath place).components = .root :: place.map .normal := by
  cases place with
  | nil => decide
  | cons name rest =>
      have segmented := segments_absolutePath fun segment member => (steps segment member).2
      have absolute : (absolutePath (name :: rest)).isAbsolute :=
        (Path.isAbsolute_iff segmented).mpr ⟨rfl, List.cons_ne_nil _ _⟩
      have names : (name :: rest).filterMap Path.innerComponent? =
          (name :: rest).map Component.normal :=
        List.filterMap_eq_map_iff_forall_eq_some.mpr fun other member => (steps other member).1
      rw [Path.components_of_segments segmented, names, absolute]
      rfl

end FileSystem

/-! ## Modules around a place -/

namespace GoModule

/-- Whether the directory at a place holds a readable module file that declares a path. -/
def Declares
    (files : FileSystem)
    (place : List String)
    (path : String) :
    Prop :=
  ∃ text, files.read ((FileSystem.absolutePath place).join fileName) = .ok text ∧
    declaredPath? text = some path

/-- A directory declares one path at most. -/
theorem Declares.unique
    {files : FileSystem}
    {place : List String}
    {path other : String}
    (declares : Declares files place path)
    (declaresOther : Declares files place other) :
    path = other := by
  obtain ⟨text, readText, isPath⟩ := declares
  obtain ⟨_, readOther, isOther⟩ := declaresOther
  cases readText.symm.trans readOther
  exact Option.some.inj (isPath.symm.trans isOther)

/-- What can be read is a file. -/
theorem isFile_of_read
    {files : FileSystem}
    {path : Path}
    {text : String}
    (isRead : files.read path = .ok text) :
    files.isFile path := by
  unfold FileSystem.read at isRead
  unfold FileSystem.isFile
  cases found : files.entry path with
  | error fault => simp [found, bind, Except.bind] at isRead
  | ok entry =>
      cases entry with
      | file content => rfl
      | directory entries => simp [found, bind, Except.bind] at isRead
      | link target => simp [found, bind, Except.bind] at isRead

/-- A directory holds the module of the path that it declares. -/
theorem load_eq_some_iff
    {files : FileSystem}
    {place : List String}
    {module : GoModule} :
    (load files (FileSystem.absolutePath place)).1 = some module ↔
      ∃ path, module = ⟨FileSystem.absolutePath place, path⟩ ∧ Declares files place path := by
  unfold load Declares
  dsimp only
  cases isRead : files.read ((FileSystem.absolutePath place).join fileName) with
  | error fault => split <;> simp
  | ok text =>
      rw [if_pos (isFile_of_read isRead)]
      cases declared : declaredPath? text with
      | none => simp [declared]
      | some path => simp [declared, eq_comm]

/-- The nearest one of the directories at and around a place that declare a path. -/
structure IsNearest
    (files : FileSystem)
    (place outer : List String)
    (path : String) :
    Prop where
  around : outer <+: place
  declares : Declares files outer path
  nearest : ∀ other further, other <+: place → Declares files other further → other <+: outer

/-- A place has one nearest module at most. -/
theorem IsNearest.unique
    {files : FileSystem}
    {place outer other : List String}
    {path further : String}
    (isNearest : IsNearest files place outer path)
    (isNearestToo : IsNearest files place other further) :
    outer = other ∧ path = further := by
  obtain rfl : outer = other :=
    (isNearestToo.nearest _ _ isNearest.around isNearest.declares).eq_of_length_le
      (isNearest.nearest _ _ isNearestToo.around isNearestToo.declares).length_le
  exact ⟨rfl, isNearest.declares.unique isNearestToo.declares⟩

/-- Names added one after the other, each behind a slash, are put together with slashes. -/
theorem foldl_eq_intercalate
    (path : String)
    (below : List String) :
    below.foldl (fun path name => path ++ "/" ++ name) path =
      String.intercalate "/" (path :: below) := by
  induction below generalizing path with
  | nil => rfl
  | cons name rest inductionHypothesis => exact inductionHypothesis (path ++ "/" ++ name)

/-- A directory inside a module has the module's path followed by the names below the module. -/
theorem importPathOf_below
    {outer below : List String}
    (steps : FileSystem.AreSteps (outer ++ below))
    (path : String) :
    importPathOf ⟨FileSystem.absolutePath outer, path⟩ (FileSystem.absolutePath (outer ++ below)) =
      some (String.intercalate "/" (path :: below)) := by
  have outerSteps : FileSystem.AreSteps outer := fun name member =>
    steps name (List.mem_append_left below member)
  have named : ∀ names : List String, names? (names.map .normal) = some names := by
    intro names
    induction names with
    | nil => rfl
    | cons name rest inductionHypothesis => simp [names?, inductionHypothesis]
  have behind : (FileSystem.absolutePath (outer ++ below)).componentsBelow?
      (FileSystem.absolutePath outer) = some (below.map .normal) := by
    simp [Path.componentsBelow?, FileSystem.components_absolutePath steps,
      FileSystem.components_absolutePath outerSteps, List.map_append]
  simp only [importPathOf, behind, Option.bind_some, named, Option.map_some,
    foldl_eq_intercalate]

/-- Names without slashes can be read off a path that ends in them. -/
theorem eq_of_intercalate
    {path : String}
    {below other : List String}
    (slashless : ∀ name ∈ below, '/' ∉ name.toList)
    (otherSlashless : ∀ name ∈ other, '/' ∉ name.toList)
    (same : String.intercalate "/" (path :: below) = String.intercalate "/" (path :: other)) :
    below = other := by
  have slash : ("/" : String).toList = ['/'] := rfl
  have apart (text : List Char) (parts : List (List Char)) :
      ['/'].intercalate (text :: parts) = text ++ ['/'].intercalate ([] :: parts) := by
    cases parts <;> simp [List.intercalate]
  have spelled := congrArg String.toList same
  simp only [String.toList_intercalate, slash, List.map_cons] at spelled
  rw [apart, apart _ (other.map String.toList)] at spelled
  have cut := congrArg (Text.segments '/') (List.append_cancel_left spelled)
  rw [Text.segments_intercalate (List.cons_ne_nil _ _) (by simpa using slashless),
    Text.segments_intercalate (List.cons_ne_nil _ _) (by simpa using otherSlashless)] at cut
  exact (List.map_inj_right fun _ _ => String.toList_injective).mp (List.cons.inj cut).2

end GoModule

/-! ## Searches -/

namespace ModuleCache

open GoModule

variable
  {files : FileSystem}
  {cache : ModuleCache}
  {directory : Path}
  {place : List String}

/-- The module that a search from a place finds when nothing is known yet. -/
def nearest?
    (files : FileSystem)
    (place : List String) :
    Option GoModule :=
  (search [] files place).found

theorem nearest?_nil : nearest? files [] = (load files (pathOf [])).1 := rfl

/-- The directory itself comes before those around it. -/
theorem nearest?_cons
    (name : String)
    (outer : List String) :
    nearest? files (name :: outer) =
      ((load files (pathOf (name :: outer))).1).or (nearest? files outer) := by
  unfold nearest?
  conv_lhs => unfold search
  rcases load files (pathOf (name :: outer)) with ⟨_ | module, warnings⟩ <;> rfl

/-- A search without a cache finds the nearest module, and nothing only if there is none. -/
theorem nearest?_spec
    (files : FileSystem)
    (place : List String) :
    (∃ outer path, nearest? files place = some ⟨FileSystem.absolutePath outer, path⟩ ∧
        IsNearest files place.reverse outer path) ∨
      (nearest? files place = none ∧
        ∀ outer path, outer <+: place.reverse → ¬Declares files outer path) := by
  induction place with
  | nil =>
      cases loaded : (load files (pathOf [])).1 with
      | none =>
          refine .inr ⟨nearest?_nil.trans loaded, fun outer path around declares => ?_⟩
          obtain rfl := List.prefix_nil.mp around
          have found := load_eq_some_iff.mpr ⟨path, rfl, declares⟩
          cases loaded.symm.trans found
      | some module =>
          obtain ⟨path, rfl, declares⟩ := load_eq_some_iff.mp loaded
          exact .inl ⟨[], path, nearest?_nil.trans loaded,
            ⟨List.prefix_rfl, declares, fun _ _ around _ => around⟩⟩
  | cons name outer inductionHypothesis =>
      rw [nearest?_cons, List.reverse_cons]
      cases loaded : (load files (pathOf (name :: outer))).1 with
      | some module =>
          obtain ⟨path, rfl, declares⟩ := load_eq_some_iff.mp loaded
          rw [List.reverse_cons] at declares
          exact .inl ⟨_, path, by rw [List.reverse_cons]; rfl,
            ⟨List.prefix_rfl, declares, fun _ _ around _ => around⟩⟩
      | none =>
          -- The directory itself declares nothing, so what is around it decides.
          have further (other : List String) (path : String)
              (around : other <+: outer.reverse ++ [name]) (declares : Declares files other path) :
              other <+: outer.reverse := by
            rcases List.prefix_concat_iff.mp around with rfl | inside
            · have found := load_eq_some_iff.mpr ⟨path, rfl, declares⟩
              rw [← List.reverse_cons] at found
              cases loaded.symm.trans found
            · exact inside
          rw [Option.none_or]
          rcases inductionHypothesis with ⟨nearest, path, found, isNearest⟩ | ⟨found, nothing⟩
          · refine .inl ⟨nearest, path, found, ?_⟩
            exact
              { around := isNearest.around.trans (List.prefix_append _ _)
                declares := isNearest.declares
                nearest := fun other path around declares =>
                  isNearest.nearest other path (further other path around declares) declares }
          · exact .inr ⟨found, fun other path around declares =>
              nothing other path (further other path around declares) declares⟩

/-- Whether a cache knows of each place what a search from there would find. -/
def IsSound
    (files : FileSystem)
    (cache : ModuleCache) :
    Prop :=
  ∀ place known, cache.lookup place = some known → known = nearest? files place

theorem isSound_nil : IsSound files [] :=
  fun _ _ found => nomatch found

/-- A search finds the same whatever is known, as long as it is true. -/
theorem IsSound.found_search
    (sound : cache.IsSound files)
    (place : List String) :
    (cache.search files place).found = nearest? files place := by
  induction place with
  | nil =>
      unfold search
      split
      · next known found => exact sound [] known found
      · rfl
  | cons name outer inductionHypothesis =>
      unfold search
      split
      · next known found => exact sound _ known found
      · rw [nearest?_cons]
        split
        · next module warnings loaded => simp [loaded]
        · next warnings loaded => simpa [loaded] using inductionHypothesis

/-- The places that a search goes through have the module that it finds. -/
theorem nearest?_passed
    {place passed : List String}
    (member : passed ∈ (cache.search files place).passed) :
    nearest? files passed = nearest? files place := by
  induction place with
  | nil =>
      unfold search at member
      split at member
      · exact absurd member List.not_mem_nil
      · obtain rfl := List.mem_singleton.mp member
        rfl
  | cons name outer inductionHypothesis =>
      unfold search at member
      split at member
      · exact absurd member List.not_mem_nil
      · split at member
        · obtain rfl := List.mem_singleton.mp member
          rfl
        · next warnings loaded =>
            have same : nearest? files (name :: outer) = nearest? files outer := by
              rw [nearest?_cons, loaded, Option.none_or]
            rcases List.mem_cons.mp member with rfl | further
            · rfl
            · exact (inductionHypothesis further).trans same.symm

/-- What is known behind a search is true when what was known before it is. -/
theorem IsSound.extended
    (sound : cache.IsSound files)
    (place : List String) :
    IsSound files
      (((cache.search files place).passed.map fun passed =>
        (passed, (cache.search files place).found)) ++ cache) := by
  intro other known found
  rw [List.lookup_append] at found
  cases isNew : List.lookup other ((cache.search files place).passed.map fun passed =>
      (passed, (cache.search files place).found)) with
  | none => exact sound other known (by simpa [isNew] using found)
  | some new =>
      obtain rfl : new = known := by simpa [isNew] using found
      obtain ⟨before, behind, listed, -⟩ := List.lookup_eq_some_iff.mp isNew
      obtain ⟨passed, member, same⟩ := List.mem_map.mp (listed ▸ List.mem_append_right before
        List.mem_cons_self : (other, new) ∈ _)
      obtain ⟨rfl, rfl⟩ := Prod.mk.inj same
      rw [sound.found_search, nearest?_passed member]

/-- An import path does not depend on what is known, and what is known stays true. -/
theorem IsSound.importPath
    (sound : cache.IsSound files)
    (directory : Path) :
    (cache.importPath files directory).1 = (ModuleCache.importPath [] files directory).1 ∧
      (cache.importPath files directory).2.1.IsSound files := by
  unfold ModuleCache.importPath
  split
  · exact ⟨rfl, sound⟩
  · next place located =>
      refine ⟨?_, sound.extended place.reverse⟩
      dsimp only
      rw [sound.found_search, isSound_nil.found_search]

/-- The import paths of directories, asked for one after the other. -/
def importPaths
    (files : FileSystem) :
    ModuleCache → List Path → List (Option String)
  | _, [] => []
  | cache, directory :: rest =>
      let (path, known, _) := cache.importPath files directory
      path :: importPaths files known rest

/-- Whatever was asked for before, a directory has the import path that it has at first. -/
theorem IsSound.importPaths
    (sound : cache.IsSound files)
    (directories : List Path) :
    cache.importPaths files directories =
      directories.map fun directory => (ModuleCache.importPath [] files directory).1 := by
  induction directories generalizing cache with
  | nil => rfl
  | cons directory rest inductionHypothesis =>
      obtain ⟨same, stillSound⟩ := sound.importPath directory
      simp only [ModuleCache.importPaths, List.map_cons, same, inductionHypothesis stillSound]

/-- What the import path of a directory is. -/
inductive HasImportPath
    (files : FileSystem)
    (directory : Path) :
    Option String → Prop where
  | lost
      {fault : FileFault}
      (lost : files.locate directory = .error fault) :
      HasImportPath files directory none
  | outside
      {place : List String}
      (located : files.locate directory = .ok place)
      (nothing : ∀ outer path, outer <+: place → ¬Declares files outer path) :
      HasImportPath files directory none
  | inside
      {outer below : List String}
      {path : String}
      (located : files.locate directory = .ok (outer ++ below))
      (isNearest : IsNearest files (outer ++ below) outer path) :
      HasImportPath files directory (some (String.intercalate "/" (path :: below)))

/-- A directory has one import path at most. -/
theorem HasImportPath.unique
    {found other : Option String}
    (has : HasImportPath files directory found)
    (hasOther : HasImportPath files directory other) :
    found = other := by
  cases has with
  | lost lost =>
      cases hasOther with
      | lost _ => rfl
      | outside _ _ => rfl
      | inside located _ => cases lost.symm.trans located
  | outside located nothing =>
      cases hasOther with
      | lost _ => rfl
      | outside _ _ => rfl
      | inside locatedToo isNearest =>
          cases located.symm.trans locatedToo
          exact absurd isNearest.declares (nothing _ _ isNearest.around)
  | inside located isNearest =>
      cases hasOther with
      | lost lost => cases lost.symm.trans located
      | outside locatedToo nothing =>
          cases locatedToo.symm.trans located
          exact absurd isNearest.declares (nothing _ _ isNearest.around)
      | inside locatedToo isNearestToo =>
          have same := Except.ok.inj (located.symm.trans locatedToo)
          rw [← same] at isNearestToo
          obtain ⟨rfl, rfl⟩ := isNearest.unique isNearestToo
          rw [List.append_cancel_left same]

/-- Without a cache a directory is given its import path. -/
theorem hasImportPath_importPath
    (areNames : ∀ name ∈ files.workingDirectory, IsEntryName name)
    (directory : Path) :
    HasImportPath files directory (importPath [] files directory).1 := by
  unfold importPath
  split
  · next fault lost => exact .lost lost
  · next place located =>
      have steps := FileSystem.areSteps_of_locate areNames located
      have spec := nearest?_spec files place.reverse
      rw [List.reverse_reverse] at spec
      dsimp only
      rw [isSound_nil.found_search]
      rcases spec with ⟨outer, path, found, isNearest⟩ | ⟨found, nothing⟩
      · obtain ⟨below, rfl⟩ := isNearest.around
        rw [found, Option.bind_some, importPathOf_below steps]
        exact .inside located isNearest
      · rw [found]
        exact .outside located nothing

/--
The cache is never noticed and the nearest module counts.  Asked for the import paths of directories
one after the other, a cache that is empty at first gives each directory the import path that it has
by itself: none if the path leads nowhere or no directory at or around it declares a module, and
otherwise the path of the nearest module with the names of the directories below it.  Directories at
two places with the same nearest module have different import paths.
-/
theorem importPaths_nearest
    (areNames : ∀ name ∈ files.workingDirectory, IsEntryName name)
    (directories : List Path) :
    importPaths files [] directories =
        directories.map (fun directory => (importPath [] files directory).1) ∧
      (∀ directory ∈ directories, ∀ found,
        (importPath [] files directory).1 = found ↔ HasImportPath files directory found) ∧
      ∀ left ∈ directories, ∀ right ∈ directories, ∀ place other outer path,
        files.locate left = .ok place → files.locate right = .ok other → place ≠ other →
        IsNearest files place outer path → IsNearest files other outer path →
        (importPath [] files left).1 ≠ (importPath [] files right).1 := by
  have given := fun directory => hasImportPath_importPath areNames directory
  refine ⟨isSound_nil.importPaths directories, fun directory _ found => ?_, ?_⟩
  · exact ⟨fun same => same ▸ given directory, fun has => (given directory).unique has⟩
  · intro left _ right _ place other outer path located locatedRight different isNearest
      isNearestRight same
    obtain ⟨below, rfl⟩ := isNearest.around
    obtain ⟨belowRight, rfl⟩ := isNearestRight.around
    rw [(given left).unique (.inside located isNearest),
      (given right).unique (.inside locatedRight isNearestRight)] at same
    have steps := FileSystem.areSteps_of_locate areNames located
    have stepsRight := FileSystem.areSteps_of_locate areNames locatedRight
    have sameBelow := eq_of_intercalate
      (fun name member => (steps name (List.mem_append_right outer member)).2)
      (fun name member => (stepsRight name (List.mem_append_right outer member)).2)
      (Option.some.inj same)
    exact different (by rw [sameBelow])

/-- A module inside of a module, and between them a module file that declares nothing. -/
def nested : FileSystem :=
  { root :=
      .directory
        [ ("w", .directory
            [ ("go.mod", .file (.text "module m\n")),
              ("a", .directory
                [ ("go.mod", .file (.text "go 1.22\n")),
                  ("b", .directory
                    [ ("go.mod", .file (.text "module n\n")),
                      ("c", .directory []) ]) ]) ]) ]
    workingDirectory := ["w"] }

theorem importPaths_nearest_nested :
    (∀ name ∈ nested.workingDirectory, IsEntryName name) ∧
      importPaths nested [] [⟨"a/b/c"⟩, ⟨"a"⟩, ⟨"a/b"⟩, ⟨"x"⟩] =
        [some "n/c", some "m/a", some "n", none] ∧
      HasImportPath nested ⟨"a/b/c"⟩ (some "n/c") ∧
      (importPath [] nested ⟨"a/b/c"⟩).1 ≠ (importPath [] nested ⟨"a/b"⟩).1 := by
  have areNames : ∀ name ∈ nested.workingDirectory, IsEntryName name := by decide
  have empty : nested.read ⟨"/w/a/b/c/go.mod"⟩ = .error .notFound := by rfl
  have declares : Declares nested ["w", "a", "b"] "n" := ⟨"module n\n", rfl, rfl⟩
  have inner : IsNearest nested ["w", "a", "b"] ["w", "a", "b"] "n" :=
    { around := List.prefix_rfl
      declares := declares
      nearest := fun _ _ around _ => around }
  have isNearest : IsNearest nested ["w", "a", "b", "c"] ["w", "a", "b"] "n" := by
    refine ⟨⟨["c"], rfl⟩, inner.declares, fun other further around declares => ?_⟩
    have parts : other <+: ["w", "a", "b"] ++ ["c"] := around
    rcases List.prefix_concat_iff.mp parts with rfl | inside
    · obtain ⟨text, isRead, -⟩ := declares
      cases empty.symm.trans isRead
    · exact inside
  obtain ⟨same, paths, distinct⟩ :=
    importPaths_nearest areNames [⟨"a/b/c"⟩, ⟨"a"⟩, ⟨"a/b"⟩, ⟨"x"⟩]
  refine ⟨areNames, same.trans rfl, ?_, ?_⟩
  · exact (paths _ (by decide) _).mp rfl
  · exact distinct _ (by decide) _ (by decide) _ _ _ _ rfl rfl (by decide) isNearest inner

end ModuleCache

end Implementers
