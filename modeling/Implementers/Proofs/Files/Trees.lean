import Implementers.Proofs.Files.Descent
import Implementers.Proofs.Files.Units
import Implementers.Proofs.Order.Pairing

namespace Implementers

/-!
# The files of a tree

A tree of directories, files and links has its files at its leaves, in front of any link.  A walk
that does not follow links lists each leaf once, by the path that joins the names on the way to it,
and at that path the file system has the leaf's text.  A plain tree has no links to follow.
-/

/-! ## Leaves -/

/-- A file in a tree: the names of the directories on the way to it, its own name, its content. -/
structure Leaf where
  directory : List String
  name : String
  content : Content
  deriving Repr, DecidableEq

namespace Leaf

/-- The path of the directory that holds a leaf, in a tree whose root has a path. -/
def directoryBelow
    (root : Path)
    (leaf : Leaf) :
    Path :=
  leaf.directory.foldl Path.join root

/-- The path of a leaf, in a tree whose root has a path. -/
def pathBelow
    (root : Path)
    (leaf : Leaf) :
    Path :=
  (leaf.directoryBelow root).join leaf.name

end Leaf

/-- The text that a file holds. -/
def Content.decoded : Content → Except FileFault String
  | .text held => .ok held
  | .undecodable => .error .undecodable

namespace Entry

mutual

/-- Whether an entry is a file or a directory whose entries have different names and are plain. -/
def IsPlain : Entry → Prop
  | .file _ => True
  | .directory entries => ArePlain entries
  | .link _ => False

/-- Whether the entries of a directory have different names and are plain. -/
def ArePlain : List (String × Entry) → Prop
  | [] => True
  | (name, entry) :: rest =>
      (IsEntryName name ∧ rest.lookup name = none) ∧ entry.IsPlain ∧ ArePlain rest

end

mutual

/-- Whether an entry is no directory, or one whose entries have different names and are named. -/
def IsNamed : Entry → Prop
  | .file _ => True
  | .directory entries => AreNamed entries
  | .link _ => True

/-- Whether the entries of a directory have different names and are named. -/
def AreNamed : List (String × Entry) → Prop
  | [] => True
  | (name, entry) :: rest =>
      (IsEntryName name ∧ rest.lookup name = none) ∧ entry.IsNamed ∧ AreNamed rest

end

mutual

/-- The leaves at or below an entry of a directory. -/
def leaves
    (directory : List String)
    (name : String) :
    Entry → List Leaf
  | .file content => [⟨directory, name, content⟩]
  | .directory entries => leavesOf (directory ++ [name]) entries
  | .link _ => []

/-- The leaves at or below each entry of a directory. -/
def leavesOf
    (directory : List String) :
    List (String × Entry) → List Leaf
  | [] => []
  | (name, entry) :: rest => entry.leaves directory name ++ leavesOf directory rest

end

end Entry

/-! ## Files side by side -/

namespace Leaf

/-- The leaf in the root of a tree. -/
def beside
    (leaf : Leaf) :
    Leaf :=
  { leaf with directory := [] }

/-- The entry of a directory that a leaf is. -/
def entry
    (leaf : Leaf) :
    String × Entry :=
  (leaf.name, .file leaf.content)

end Leaf

namespace Entry

/-- The leaves below entries are those below each of them. -/
theorem leavesOf_eq_flatMap
    (directory : List String)
    (entries : List (String × Entry)) :
    leavesOf directory entries =
      entries.flatMap fun entry => entry.2.leaves directory entry.1 := by
  induction entries with
  | nil => rfl
  | cons entry rest inductionHypothesis =>
      rw [List.flatMap_cons, leavesOf, inductionHypothesis]

/-- Files side by side, in any order, are the leaves side by side. -/
theorem leavesOf_perm
    {entries : List (String × Entry)}
    {leaves : List Leaf}
    (perm : entries.Perm (leaves.map Leaf.entry)) :
    (leavesOf [] entries).Perm (leaves.map Leaf.beside) := by
  have each : leavesOf [] (leaves.map Leaf.entry) = leaves.map Leaf.beside := by
    rw [leavesOf_eq_flatMap, List.flatMap_map, ← List.flatMap_pure_eq_map]
    rfl
  rw [← each, leavesOf_eq_flatMap, leavesOf_eq_flatMap]
  exact perm.flatMap_right _

mutual

/-- A plain entry is named. -/
theorem IsPlain.isNamed :
    ∀ {entry : Entry}, entry.IsPlain → entry.IsNamed
  | .file _, _ => trivial
  | .directory _, arePlain => ArePlain.areNamed arePlain
  | .link _, isPlain => isPlain.elim

/-- Plain entries are named. -/
theorem ArePlain.areNamed :
    ∀ {entries : List (String × Entry)}, ArePlain entries → AreNamed entries
  | [], _ => trivial
  | _ :: _, ⟨named, isPlain, restArePlain⟩ => ⟨named, isPlain.isNamed, restArePlain.areNamed⟩

end

/-- Plain entries of a directory have different names. -/
theorem ArePlain.nodup
    {entries : List (String × Entry)}
    (arePlain : ArePlain entries) :
    (entries.map Prod.fst).Nodup := by
  induction entries with
  | nil => exact .nil
  | cons entry rest inductionHypothesis =>
      obtain ⟨⟨_, absent⟩, _, restArePlain⟩ := arePlain
      refine List.nodup_cons.mpr ⟨fun listed => ?_, inductionHypothesis restArePlain⟩
      obtain ⟨other, member, sameName⟩ := List.mem_map.mp listed
      have different := List.lookup_eq_none_iff.mp absent other member
      simp [sameName] at different

end Entry

/-! ## Listing -/

namespace Walk

/-- Whether a listing has the given paths in some order. -/
def Lists
    (listing : Listing)
    (paths : List Path) :
    Prop :=
  ∃ listed, listing = .ok listed ∧ listed.Perm paths

/-- The listings of a directory's entries make up a listing of all of them. -/
theorem lists_inNameOrder
    {listings : List (String × Listing)}
    {parts : List (List Path)}
    (each : List.Forall₂ (fun entry paths => Lists entry.2 paths) listings parts) :
    Lists (inNameOrder listings) parts.flatten := by
  have joined :
      ∀ {sorted : List (String × Listing)} {arranged : List (List Path)},
        List.Forall₂ (fun entry paths => Lists entry.2 paths) sorted arranged →
        Lists (sorted.foldr (fun listing rest => Listing.append listing.2 rest) (.ok []))
          arranged.flatten := by
    intro sorted arranged pairs
    induction pairs with
    | nil => exact ⟨[], rfl, .refl _⟩
    | cons first _ inductionHypothesis =>
        obtain ⟨listed, isListed, perm⟩ := first
        obtain ⟨others, areListed, permOthers⟩ := inductionHypothesis
        refine ⟨listed ++ others, ?_, perm.append permOthers⟩
        simp only [List.foldr_cons, isListed, areListed]
        rfl
  -- Sorting arranges the parts in the same way as the listings.
  obtain ⟨arranged, permutes, pairs⟩ :=
    (Paired.of_perm (List.mergeSort_perm listings
      fun left right => compare left.1 right.1 != .gt)).trans (Paired.of_forall₂ each)
      (fun _ _ _ same lists => same ▸ lists) |>.symm
  obtain ⟨listed, isListed, perm⟩ := joined pairs.flip
  exact ⟨listed, isListed, perm.trans permutes.symm.flatten⟩

mutual

/-- An entry's leaves are listed if no link is followed. -/
theorem lists_below
    (files : FileSystem)
    {options : WalkOptions}
    (jump : Jump)
    (recursive : options.recursive)
    (root : Path) :
    ∀ (entry : Entry) (chain : Chain) (place directory : List String) (name : String),
      (options.followLinks → entry.IsPlain) →
      Lists
        (below files options jump chain ((directory.foldl Path.join root).join name) place entry)
        ((entry.leaves directory name).map (Leaf.pathBelow root))
  | .file _, _, _, _, _, _ => ⟨_, rfl, .refl _⟩
  | .directory entries, chain, place, directory, name, isPlain => by
      have each :=
        lists_belowEach files jump recursive root entries (place :: chain) place (directory ++ [name])
          isPlain
      rw [List.foldl_append] at each
      obtain ⟨parts, pairs, flattened⟩ := each
      simp only [below, recursive, ↓reduceIte, Entry.leaves, ← flattened]
      exact lists_inNameOrder pairs
  | .link _, _, _, _, _, isPlain => by
      have aside : options.followLinks = false := eq_false_of_ne_true fun follows => isPlain follows
      simp only [below, aside, Bool.false_eq_true, ↓reduceIte, Entry.leaves, List.map_nil]
      exact ⟨[], rfl, .refl _⟩

/-- The leaves of each entry of a directory are listed if no link is followed. -/
theorem lists_belowEach
    (files : FileSystem)
    {options : WalkOptions}
    (jump : Jump)
    (recursive : options.recursive)
    (root : Path) :
    ∀ (entries : List (String × Entry)) (chain : Chain) (place directory : List String),
      (options.followLinks → Entry.ArePlain entries) →
      ∃ parts,
        List.Forall₂ (fun entry paths => Lists entry.2 paths)
          (belowEach files options jump chain (directory.foldl Path.join root) place entries)
          parts ∧
        parts.flatten = (Entry.leavesOf directory entries).map (Leaf.pathBelow root)
  | [], _, _, _, _ => ⟨[], .nil, rfl⟩
  | (name, entry) :: rest, chain, place, directory, arePlain => by
      obtain ⟨parts, pairs, flattened⟩ :=
        lists_belowEach files jump recursive root rest chain place directory
          fun follows => (arePlain follows).2.2
      refine ⟨(entry.leaves directory name).map (Leaf.pathBelow root) :: parts, .cons ?_ pairs, ?_⟩
      · exact lists_below files jump recursive root entry chain (place ++ [name]) directory name
          fun follows => (arePlain follows).2.1
      · rw [List.flatten_cons, flattened, Entry.leavesOf, List.map_append]

end

/-- Files side by side are listed, whether the walk goes into directories or not. -/
theorem lists_belowEach_files
    (files : FileSystem)
    (options : WalkOptions)
    (jump : Jump)
    (chain : Chain)
    (root : Path)
    (place : List String) :
    ∀ entries : List (String × Entry),
      (∀ entry ∈ entries, ∃ content, entry.2 = .file content) →
      ∃ parts,
        List.Forall₂ (fun entry paths => Lists entry.2 paths)
          (belowEach files options jump chain root place entries) parts ∧
        parts.flatten = (Entry.leavesOf [] entries).map (Leaf.pathBelow root)
  | [], _ => ⟨[], .nil, rfl⟩
  | (name, entry) :: rest, areFiles => by
      obtain ⟨⟨content, isFile⟩, restAreFiles⟩ := List.forall_mem_cons.mp areFiles
      obtain rfl : entry = .file content := isFile
      obtain ⟨parts, pairs, flattened⟩ :=
        lists_belowEach_files files options jump chain root place rest restAreFiles
      refine ⟨[root.join name] :: parts, .cons ⟨_, rfl, .refl _⟩ pairs, ?_⟩
      rw [List.flatten_cons, flattened]
      rfl

end Walk

/-! ## Reading -/

namespace FileSystem

/-- A path that leads to a directory, with the place of the directory and what it holds. -/
structure LeadsTo
    (files : FileSystem)
    (path : Path)
    (place : List String)
    (entries : List (String × Entry)) :
    Prop where
  located : files.locate path = .ok place
  atPlace : files.root.at? place = some (.directory entries)

variable
  {files : FileSystem}
  {path : Path}
  {place : List String}
  {entries : List (String × Entry)}
  {name : String}

/-- A path that leads somewhere is not empty. -/
theorem LeadsTo.notEmpty
    (leads : files.LeadsTo path place entries) :
    path.text ≠ "" :=
  (locate_ok_iff.mp leads.located).1

/-- An entry of a directory is found at its name behind the directory. -/
theorem LeadsTo.locate_join
    (leads : files.LeadsTo path place entries)
    (isName : IsEntryName name)
    {entry : Entry}
    (found : entries.lookup name = some entry)
    (noLink : ∀ target, entry ≠ .link target) :
    files.locate (path.join name) = .ok (place ++ [name]) ∧
      files.root.at? (place ++ [name]) = some entry := by
  constructor
  · exact FileSystem.locate_join isName leads.located leads.atPlace found noLink
  · rw [Entry.at?_append, leads.atPlace]
    simp [Entry.at?, Entry.entries, found]

/-- A file in a directory is read at its name behind the directory. -/
theorem LeadsTo.read_join
    (leads : files.LeadsTo path place entries)
    (isName : IsEntryName name)
    {content : Content}
    (found : entries.lookup name = some (.file content)) :
    files.read (path.join name) = content.decoded := by
  obtain ⟨located, atPlace⟩ := leads.locate_join isName found (by rintro _ ⟨⟩)
  simp only [read, entry, located, bind, Except.bind, atPlace]
  cases content <;> rfl

end FileSystem

/-- A leaf of a tree in a file system, found in its directory. -/
structure Leaf.IsFound
    (files : FileSystem)
    (root : Path)
    (place : List String)
    (leaf : Leaf) :
    Prop where
  isName : IsEntryName leaf.name
  areNames : ∀ name ∈ leaf.directory, IsEntryName name
  inDirectory :
    ∃ siblings, files.LeadsTo (leaf.directoryBelow root) (place ++ leaf.directory) siblings ∧
      siblings.lookup leaf.name = some (.file leaf.content)

namespace Leaf

mutual

/-- The leaves at or below an entry of a directory are found. -/
theorem isFound_of_mem_leaves
    {files : FileSystem}
    {root : Path}
    {place : List String} :
    ∀ (entry : Entry) {directory : List String} {siblings : List (String × Entry)} {name : String},
      files.LeadsTo (directory.foldl Path.join root) (place ++ directory) siblings →
      (∀ outer ∈ directory, IsEntryName outer) →
      siblings.lookup name = some entry → IsEntryName name → entry.IsNamed →
      ∀ leaf ∈ entry.leaves directory name, leaf.IsFound files root place
  | .file content, directory, siblings, name, leads, areNames, found, isName, _, leaf, member => by
      obtain rfl := List.mem_singleton.mp member
      exact ⟨isName, areNames, siblings, leads, found⟩
  | .directory entries, directory, siblings, name, leads, areNames, found, isName, isNamed,
      leaf, member => by
      obtain ⟨located, atPlace⟩ := leads.locate_join isName found (by rintro _ ⟨⟩)
      have leadsInside :
          files.LeadsTo ((directory ++ [name]).foldl Path.join root) (place ++ (directory ++ [name]))
            entries := by
        rw [List.foldl_append, ← List.append_assoc]
        exact ⟨located, atPlace⟩
      have areNamesInside : ∀ outer ∈ directory ++ [name], IsEntryName outer := by
        intro outer inPath
        rcases List.mem_append.mp inPath with earlier | isLast
        · exact areNames outer earlier
        · exact List.mem_singleton.mp isLast ▸ isName
      exact isFound_of_mem_leavesOf entries leadsInside areNamesInside (fun _ _ found => found)
        isNamed leaf member
  | .link _, _, _, _, _, _, _, _, _, _, member => (List.not_mem_nil member).elim

/-- The leaves at or below each of the entries of a directory are found. -/
theorem isFound_of_mem_leavesOf
    {files : FileSystem}
    {root : Path}
    {place : List String} :
    ∀ (entries : List (String × Entry)) {directory : List String}
      {siblings : List (String × Entry)},
      files.LeadsTo (directory.foldl Path.join root) (place ++ directory) siblings →
      (∀ outer ∈ directory, IsEntryName outer) →
      (∀ name entry, entries.lookup name = some entry → siblings.lookup name = some entry) →
      Entry.AreNamed entries →
      ∀ leaf ∈ Entry.leavesOf directory entries, leaf.IsFound files root place
  | [], _, _, _, _, _, _, _, member => (List.not_mem_nil member).elim
  | (name, entry) :: rest, directory, siblings, leads, areNames, among,
      ⟨⟨isName, absent⟩, isNamed, areNamed⟩, leaf, member => by
      rcases List.mem_append.mp member with ofFirst | ofRest
      · exact isFound_of_mem_leaves entry leads areNames (among name entry (List.lookup_cons_self ..))
          isName isNamed leaf ofFirst
      · refine isFound_of_mem_leavesOf rest leads areNames (fun other found inRest => ?_) areNamed
          leaf ofRest
        have different : other ≠ name := by
          rintro rfl
          exact nomatch absent.symm.trans inRest
        refine among other found ?_
        rw [List.lookup_cons, beq_false_of_ne different]
        exact inRest

end

end Leaf

end Implementers
