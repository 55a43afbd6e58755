import Implementers.Files.Walk
import Implementers.Proofs.Identity
import Implementers.Proofs.Scope.Origin
import Mathlib.Data.List.Forall2
import Mathlib.Data.List.Pairwise

namespace Implementers

/-!
# The units of a walk

A walk makes one unit for each directory, so no two of its units have the same path and no file
belongs to two of them.  The import paths that units get change neither.
-/

namespace SourceUnit

/-- Whether two units have different paths and no file in common. -/
structure Apart
    (left right : SourceUnit) :
    Prop where
  path : ¬ left.path.same right.path
  files : ∀ file ∈ left.files, file ∉ right.files

instance : Std.Symm Apart where
  symm _ _ apart :=
    { path := fun same => apart.path (Path.same_iff.mpr (Path.same_iff.mp same).symm)
      files := fun file inRight inLeft => apart.files file inLeft inRight }

/-- Of units that are apart, only one has a file. -/
theorem eq_of_shared_file
    {units : List SourceUnit}
    (apart : units.Pairwise Apart)
    {left right : SourceUnit}
    (leftMember : left ∈ units)
    (rightMember : right ∈ units)
    {file : Path}
    (inLeft : file ∈ left.files)
    (inRight : file ∈ right.files) :
    left = right := by
  by_contra different
  exact (apart.forall leftMember rightMember different).files file inLeft inRight

/-- Units that differ from others in their import paths only. -/
structure SameFiles
    (left right : SourceUnit) :
    Prop where
  path : left.path = right.path
  files : left.files = right.files

/-- Units that differ in their import paths only are apart when the others are. -/
theorem pairwise_of_sameFiles
    {left right : List SourceUnit}
    (same : List.Forall₂ SameFiles left right)
    (apart : right.Pairwise Apart) :
    left.Pairwise Apart := by
  induction same with
  | nil => exact .nil
  | cons sameUnit sameOthers inductionHypothesis =>
      obtain ⟨fromUnit, fromRest⟩ := List.pairwise_cons.mp apart
      refine List.pairwise_cons.mpr ⟨fun other member => ?_, inductionHypothesis fromRest⟩
      obtain ⟨earlier, earlierMember, sameOther⟩ := exists_related_right sameOthers member
      have apartUnit := fromUnit earlier earlierMember
      exact ⟨by rw [sameUnit.path, sameOther.path]; exact apartUnit.path,
        by rw [sameUnit.files, sameOther.files]; exact apartUnit.files⟩

end SourceUnit

namespace Walk

/-- No two of the distinct paths are the same. -/
theorem distinct_pairwise
    (paths : List Path) :
    (distinct paths).Pairwise fun left right => ¬ left.same right := by
  induction paths with
  | nil => exact .nil
  | cons path rest inductionHypothesis =>
      refine List.pairwise_cons.mpr ⟨fun other member => ?_, inductionHypothesis.filter _⟩
      simpa using (List.mem_filter.mp member).2

/-- The units of directories that are not the same have no file in common. -/
theorem units_pairwise
    (root : Path)
    (found : List Path) :
    (units root found).Pairwise SourceUnit.Apart := by
  have different :
      ((distinct (found.map (directoryOf root))).mergeSort Path.notAfter).Pairwise
        fun left right => ¬ left.same right := by
    refine (List.mergeSort_perm _ _).symm.pairwise (distinct_pairwise _) fun differ same => ?_
    exact differ (by rw [Path.same_iff] at same ⊢; exact same.symm)
  refine List.pairwise_map.mpr (different.imp fun {left right} differ => ⟨differ, ?_⟩)
  intro file inLeft inRight
  simp only [SourceUnit.directory, List.mem_mergeSort, List.mem_filter] at inLeft inRight
  rw [Path.same_iff] at inLeft inRight differ
  exact differ (inLeft.2.trans inRight.2.symm)

/-- Units get their import paths and stay as they are otherwise. -/
theorem withImportPaths_sameFiles
    (files : FileSystem)
    (walked : List SourceUnit) :
    ∀ cache : ModuleCache,
      List.Forall₂ SourceUnit.SameFiles (withImportPaths files cache walked).1 walked := by
  induction walked with
  | nil => exact fun _ => .nil
  | cons unit rest inductionHypothesis =>
      intro cache
      exact .cons ⟨rfl, rfl⟩ (inductionHypothesis _)

/-- The units of a walk have different paths and no file in common. -/
theorem unitsAt_pairwise
    {files : FileSystem}
    {options : WalkOptions}
    {root : Path}
    {found : List SourceUnit}
    {warnings : List Warning}
    (walked : unitsAt files options root = .ok (found, warnings)) :
    found.Pairwise SourceUnit.Apart := by
  have kept (made : List SourceUnit) (apart : made.Pairwise SourceUnit.Apart)
      (same : withImportPaths files [] made = (found, warnings)) :
      found.Pairwise SourceUnit.Apart := by
    have sameFiles := withImportPaths_sameFiles files made []
    rw [same] at sameFiles
    exact SourceUnit.pairwise_of_sameFiles sameFiles apart
  unfold unitsAt at walked
  split at walked
  · cases walked
  · split at walked
    · obtain ⟨listed, _, returned⟩ := ok_of_bind walked
      exact kept _ (units_pairwise root _) (Except.ok.inj returned)
    · exact kept _ (List.pairwise_singleton _ _) (Except.ok.inj walked)

end Walk

end Implementers
