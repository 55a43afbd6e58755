import Implementers.Files.Module
import Implementers.Proofs.Files.Paths

namespace Implementers

/-!
# Going down a file tree

A path that leads to a directory leads to each entry of the directory when the entry's name is
joined to it, unless the entry is a link.  Going back from there leads to the directory again.
Where no directory around a place holds a module file, no module is found for it.
-/

namespace FileSystem

/-! ## Routes in two parts -/

/--
A route that either fails whatever its last segments are, or whose first segments lead somewhere
from where the last ones go on.
-/
def Divides
    (root : Entry)
    (route : Route) :
    Prop :=
  ∀ place before,
    (∃ fault, ∀ behind, route place (before ++ behind) = .error fault) ∨
      ∃ middle links, route place before = .ok middle ∧
        ∀ behind, route place (before ++ behind) = follow root links middle behind

/-- How a route goes on at a link. -/
def onward
    (root : Entry) :
    Nat → Route
  | 0 => fun _ _ => .error .tooManyLinks
  | links + 1 => follow root links

theorem follow_eq
    (root : Entry)
    (links : Nat) :
    follow root links = followTo root (onward root links) := by
  cases links <;> rfl

/-- A route divides when the way on at links does. -/
theorem divides_of_onward
    {root : Entry}
    {links : Nat}
    (divides : Divides root (onward root links)) :
    Divides root (follow root links) := by
  intro place before
  induction before generalizing place with
  | nil => exact .inr ⟨place, links, by rw [follow_eq]; rfl, fun _ => by rw [List.nil_append]⟩
  | cons segment rest inductionHypothesis =>
      rw [follow_eq] at inductionHypothesis ⊢
      simp only [List.cons_append, followTo]
      cases root.at? place with
      | none => exact .inl ⟨_, fun _ => rfl⟩
      | some here =>
          simp only
          split
          · exact .inl ⟨_, fun _ => rfl⟩
          · split
            · exact inductionHypothesis place
            · split
              · exact inductionHypothesis place.dropLast
              · split
                · exact .inl ⟨_, fun _ => rfl⟩
                · cases here.entries.lookup segment with
                  | none => exact .inl ⟨_, fun _ => rfl⟩
                  | some entry =>
                      cases entry with
                      | link target =>
                          simp only [← List.append_assoc]
                          exact divides _ _
                      | file _ => exact inductionHypothesis _
                      | directory _ => exact inductionHypothesis _

/-- Every route divides. -/
theorem divides_follow
    (root : Entry)
    (links : Nat) :
    Divides root (follow root links) := by
  -- A link's target comes in front of what is left, so the two parts stay apart.
  induction links with
  | zero => exact divides_of_onward fun _ _ => .inl ⟨_, fun _ => rfl⟩
  | succ links inductionHypothesis => exact divides_of_onward inductionHypothesis

/-- A route that leads somewhere can be divided, and its first part can go on otherwise. -/
theorem exists_of_follow_append
    {root : Entry}
    {links : Nat}
    {place before behind final : List String}
    (leads : follow root links place (before ++ behind) = .ok final) :
    ∃ middle fewer, follow root links place before = .ok middle ∧
      follow root fewer middle behind = .ok final ∧
      ∀ other, follow root links place (before ++ other) = follow root fewer middle other := by
  rcases divides_follow root links place before with ⟨fault, fails⟩ | ⟨middle, fewer, first, goesOn⟩
  · rw [fails behind] at leads
    cases leads
  · exact ⟨middle, fewer, first, by rw [← goesOn, leads], goesOn⟩

section Steps

variable
  {root : Entry}
  {links : Nat}
  {place : List String}
  {here : Entry}

/-- An idle segment leads nowhere else, but it needs a directory to stand behind. -/
theorem follow_idle
    {segment : String}
    (isIdle : Path.isIdleSegment segment)
    (rest : List String) :
    follow root links place (segment :: rest) =
      match root.at? place with
      | none => .error .notFound
      | some here =>
          if here.isDirectory then follow root links place rest else .error .notDirectory := by
  have idle : (segment == "" || segment == ".") = true := by
    unfold Path.isIdleSegment Path.innerComponent? at isIdle
    split at isIdle <;> simp_all
  rw [follow_eq]
  simp only [followTo, idle, ↓reduceIte]
  cases root.at? place with
  | none => rfl
  | some here => cases here <;> rfl

/-- Idle segments lead nowhere else. -/
theorem follow_allIdle
    {idle : List String}
    (areIdle : ∀ segment ∈ idle, Path.isIdleSegment segment)
    {final : List String}
    (leads : follow root links place idle = .ok final) :
    final = place ∧ (idle ≠ [] → (root.at? place).any Entry.isDirectory) := by
  induction idle with
  | nil =>
      rw [follow_eq] at leads
      cases leads
      exact ⟨rfl, fun some => absurd rfl some⟩
  | cons segment rest inductionHypothesis =>
      obtain ⟨isIdle, restIdle⟩ := List.forall_mem_cons.mp areIdle
      rw [follow_idle isIdle] at leads
      cases found : root.at? place with
      | none => simp [found] at leads
      | some here =>
          simp only [found] at leads
          split at leads
          · next isDirectory =>
              exact ⟨(inductionHypothesis restIdle leads).1, fun _ => by simpa using isDirectory⟩
          · cases leads

/-- Idle segments behind a directory lead to it. -/
theorem follow_idle_directory
    {idle : List String}
    (areIdle : ∀ segment ∈ idle, Path.isIdleSegment segment)
    (isDirectory : idle ≠ [] → (root.at? place).any Entry.isDirectory) :
    follow root links place idle = .ok place := by
  induction idle with
  | nil => rw [follow_eq]; rfl
  | cons segment rest inductionHypothesis =>
      obtain ⟨isIdle, restIdle⟩ := List.forall_mem_cons.mp areIdle
      have here := isDirectory (List.cons_ne_nil _ _)
      rw [follow_idle isIdle]
      cases found : root.at? place with
      | none => simp [found] at here
      | some entry =>
          have entryIsDirectory : entry.isDirectory = true := by simpa [found] using here
          simp only [entryIsDirectory, ↓reduceIte]
          exact inductionHypothesis restIdle fun _ => by simp [found, entryIsDirectory]

/-- A name that an entry can have is looked up in the directory. -/
theorem follow_lookup
    {name : String}
    {entries : List (String × Entry)}
    (isName : IsEntryName name)
    (atPlace : root.at? place = some (.directory entries))
    (rest : List String) :
    follow root links place (name :: rest) =
      match entries.lookup name with
      | none => .error .notFound
      | some (.link target) =>
          onward root links (if target.isAbsolute then [] else place) (target.segments ++ rest)
      | some _ => follow root links (place ++ [name]) rest := by
  have notIdle : (name == "" || name == ".") = false := by
    simp [isName.notEmpty, isName.notCurrent]
  have notParent : (name == "..") = false := beq_false_of_ne isName.notParent
  have short : ¬nameLimit < Text.byteLength name.toList := Nat.not_lt.mpr isName.short
  rw [follow_eq]
  cases found : entries.lookup name with
  | none =>
      simp only [followTo, atPlace, Entry.isDirectory, Bool.not_true, Bool.false_eq_true,
        ↓reduceIte, notIdle, notParent, short, Entry.entries, found]
  | some entry =>
      cases entry <;>
        simp only [followTo, atPlace, Entry.isDirectory, Bool.not_true, Bool.false_eq_true,
          ↓reduceIte, notIdle, notParent, short, Entry.entries, found] <;>
        rfl

/-- The name of an entry that is no link leads to the entry. -/
theorem follow_name
    {name : String}
    {entries : List (String × Entry)}
    (isName : IsEntryName name)
    (atPlace : root.at? place = some (.directory entries))
    {entry : Entry}
    (found : entries.lookup name = some entry)
    (noLink : ∀ target, entry ≠ .link target)
    (rest : List String) :
    follow root links place (name :: rest) = follow root links (place ++ [name]) rest := by
  rw [follow_lookup isName atPlace, found]
  cases entry with
  | link target => exact absurd rfl (noLink target)
  | _ => rfl

/-- A name that a directory does not hold leads nowhere. -/
theorem follow_absent
    {name : String}
    {entries : List (String × Entry)}
    (isName : IsEntryName name)
    (atPlace : root.at? place = some (.directory entries))
    (absent : entries.lookup name = none)
    (rest : List String) :
    follow root links place (name :: rest) = .error .notFound := by
  rw [follow_lookup isName atPlace, absent]

end Steps

/-! ## Joined paths -/

section Joined

variable
  {files : FileSystem}
  {directory : Path}
  {place : List String}
  {entries : List (String × Entry)}

/-- What a path that leads somewhere is like. -/
theorem locate_ok_iff
    {path : Path} :
    files.locate path = .ok place ↔
      path.text ≠ "" ∧ '\x00' ∉ path.text.toList ∧
        follow files.root linkLimit (if path.isAbsolute then [] else files.workingDirectory)
          path.segments = .ok place := by
  unfold locate
  by_cases isEmpty : path.text = ""
  · simp [isEmpty]
  · by_cases hasNul : '\x00' ∈ path.text.toList
    · simp [isEmpty, hasNul, String.isEmpty_iff]
    · simp [isEmpty, hasNul, String.isEmpty_iff]

/-- A path with the same start and no other segments has no null character either. -/
theorem noNul_of_segments
    {path other : Path}
    (noNul : '\x00' ∉ path.text.toList)
    (included : ∀ segment ∈ other.segments,
      segment ∈ path.segments ∨ '\x00' ∉ segment.toList) :
    '\x00' ∉ other.text.toList := by
  rw [Path.mem_text_iff (by decide)] at noNul ⊢
  rintro ⟨segment, listed, member⟩
  rcases included segment listed with earlier | without
  · exact noNul ⟨segment, earlier, member⟩
  · exact without member

/-- The path of an entry goes on from where the path of its directory leads. -/
theorem exists_locate_join
    {name : String}
    (isName : IsEntryName name)
    (located : files.locate directory = .ok place) :
    ∃ links, ∀ final,
      (files.locate (directory.join name) = .ok final ↔
        follow files.root links place [name] = .ok final) := by
  obtain ⟨some, noNul, leads⟩ := locate_ok_iff.mp located
  obtain ⟨first, kept, idle, spelled, few, joined⟩ :=
    Path.exists_segments_join some isName.slashless
  have areIdle : ∀ segment ∈ idle, Path.isIdleSegment segment := by
    rcases few with rfl | rfl <;> simp [Path.isIdleSegment, Path.innerComponent?]
  rw [spelled, ← List.cons_append] at leads
  obtain ⟨middle, links, -, behind, goesOn⟩ := exists_of_follow_append leads
  obtain ⟨rfl, -⟩ := follow_allIdle areIdle behind
  refine ⟨links, fun final => ?_⟩
  rw [locate_ok_iff, Path.isAbsolute_join some, joined, ← List.cons_append, goesOn]
  have noNulJoined : '\x00' ∉ (directory.join name).text.toList := by
    refine noNul_of_segments noNul fun segment listed => ?_
    rw [joined, ← List.cons_append] at listed
    rcases List.mem_append.mp listed with inFront | isLast
    · rw [spelled, ← List.cons_append]
      exact .inl (List.mem_append_left _ inFront)
    · obtain rfl := List.mem_singleton.mp isLast
      exact .inr isName.nulless
  exact ⟨fun found => found.2.2, fun found => ⟨Path.join_ne_empty isName, noNulJoined, found⟩⟩

/-- An entry that is no link is found at its name behind its directory. -/
theorem locate_join
    {name : String}
    (isName : IsEntryName name)
    (located : files.locate directory = .ok place)
    (atPlace : files.root.at? place = some (.directory entries))
    {entry : Entry}
    (found : entries.lookup name = some entry)
    (noLink : ∀ target, entry ≠ .link target) :
    files.locate (directory.join name) = .ok (place ++ [name]) := by
  obtain ⟨links, leads⟩ := exists_locate_join isName located
  rw [leads, follow_name isName atPlace found noLink, follow_eq]
  rfl

/-- Nothing is found at a name that a directory does not hold. -/
theorem isFile_join_absent
    {name : String}
    (isName : IsEntryName name)
    (located : files.locate directory = .ok place)
    (atPlace : files.root.at? place = some (.directory entries))
    (absent : entries.lookup name = none) :
    files.isFile (directory.join name) = false := by
  obtain ⟨links, leads⟩ := exists_locate_join isName located
  cases final : files.locate (directory.join name) with
  | ok final =>
      rw [leads, follow_absent isName atPlace absent] at final
      cases final
  | error fault => simp [isFile, entry, final, bind, Except.bind]

/-- Going back from an entry leads to its directory. -/
theorem locate_of_endsIdly
    {short : Path}
    (ends : Path.EndsIdly short directory)
    (located : files.locate directory = .ok place) :
    files.locate short = .ok place := by
  obtain ⟨some, noNul, leads⟩ := locate_ok_iff.mp located
  obtain ⟨first, kept, few, many, shortly, longly, fewIdle, manyIdle, enough⟩ := ends.spelled
  rw [longly, ← List.cons_append] at leads
  obtain ⟨middle, links, -, behind, goesOn⟩ := exists_of_follow_append leads
  obtain ⟨rfl, isDirectory⟩ := follow_allIdle manyIdle behind
  refine locate_ok_iff.mpr ⟨?_, ?_, ?_⟩
  · intro isEmpty
    rw [Path.text_eq_empty_iff, shortly] at isEmpty
    obtain ⟨rfl, nothing⟩ := List.cons.inj isEmpty
    have relative : ¬short.isAbsolute := by simp [Path.isAbsolute_iff shortly, nothing]
    rw [ends.sameRoot, Path.isAbsolute_iff longly] at relative
    refine some ((Path.text_eq_empty_iff directory).mpr ?_)
    rw [longly, Classical.not_not.mp fun others => relative ⟨rfl, others⟩]
  · refine noNul_of_segments noNul fun segment listed => ?_
    rw [shortly, ← List.cons_append] at listed
    rcases List.mem_append.mp listed with inFront | isIdle
    · rw [longly, ← List.cons_append]
      exact .inl (List.mem_append_left _ inFront)
    · have idle := fewIdle segment isIdle
      refine .inr ?_
      unfold Path.isIdleSegment Path.innerComponent? at idle
      split at idle <;> simp_all
  · rw [ends.sameRoot, shortly, ← List.cons_append, goesOn]
    exact follow_idle_directory fewIdle fun someFew => isDirectory (enough someFew)

end Joined

end FileSystem

/-! ## Places -/

namespace Entry

/-- A list of names in two parts leads on from where the first part leads. -/
theorem at?_append
    (entry : Entry)
    (before behind : List String) :
    entry.at? (before ++ behind) = (entry.at? before).bind (·.at? behind) := by
  induction before generalizing entry with
  | nil => simp [at?]
  | cons name rest inductionHypothesis =>
      simp only [List.cons_append, at?]
      cases entry.entries.lookup name with
      | none => rfl
      | some child => exact inductionHypothesis child

/-- Only a directory has entries to find. -/
theorem eq_directory_of_lookup
    {entry found : Entry}
    {name : String}
    (isFound : entry.entries.lookup name = some found) :
    ∃ entries, entry = .directory entries ∧ entries.lookup name = some found := by
  cases entry with
  | directory entries => exact ⟨entries, rfl, isFound⟩
  | file _ => cases isFound
  | link _ => cases isFound

mutual

/-- Whether no directory at or below an entry holds an entry of a name. -/
def lacks
    (name : String) :
    Entry → Bool
  | .directory entries => allLack name entries
  | _ => true

/-- Whether neither the entries of a directory nor those below them have a name. -/
def allLack
    (name : String) :
    List (String × Entry) → Bool
  | [] => true
  | (other, entry) :: rest => other != name && entry.lacks name && allLack name rest

end

/-- A directory whose entries lack a name does not hold it, and nor do the entries. -/
theorem lookup_of_allLack
    {name : String}
    {entries : List (String × Entry)}
    (lack : allLack name entries) :
    entries.lookup name = none ∧
      ∀ other child, entries.lookup other = some child → child.lacks name := by
  induction entries with
  | nil => simp
  | cons entry rest inductionHypothesis =>
      simp only [allLack, Bool.and_eq_true, bne_iff_ne] at lack
      obtain ⟨⟨different, lacksHere⟩, lackBelow⟩ := lack
      obtain ⟨absent, lacksRest⟩ := inductionHypothesis lackBelow
      refine ⟨?_, fun other child found => ?_⟩
      · rw [List.lookup_cons, beq_false_of_ne (Ne.symm different)]
        exact absent
      · rw [List.lookup_cons] at found
        split at found
        · exact Option.some.inj found ▸ lacksHere
        · exact lacksRest other child found

/-- A name that a tree lacks is in none of its directories. -/
theorem lookup_of_lacks
    {name : String}
    {root : Entry}
    (lacksName : root.lacks name)
    {place : List String}
    {entries : List (String × Entry)}
    (atPlace : root.at? place = some (.directory entries)) :
    entries.lookup name = none := by
  induction place generalizing root with
  | nil =>
      cases atPlace
      exact (lookup_of_allLack lacksName).1
  | cons outer rest inductionHypothesis =>
      obtain ⟨child, isChild, further⟩ := Option.bind_eq_some_iff.mp atPlace
      obtain ⟨siblings, rfl, found⟩ := eq_directory_of_lookup isChild
      exact inductionHypothesis ((lookup_of_allLack lacksName).2 outer child found) further

end Entry

namespace FileSystem

/-- The names on the way to a directory lead to it. -/
theorem follow_names
    {root : Entry}
    {links : Nat}
    {entries : List (String × Entry)} :
    ∀ {names place : List String},
      (∀ name ∈ names, IsEntryName name) →
      root.at? (place ++ names) = some (.directory entries) →
      follow root links place names = .ok (place ++ names)
  | [], place, _, _ => by
      rw [follow_eq, List.append_nil]
      rfl
  | name :: rest, place, areNames, leads => by
      obtain ⟨isName, restAreNames⟩ := List.forall_mem_cons.mp areNames
      have cut : place ++ name :: rest = (place ++ [name]) ++ rest := by simp
      have stepwise := leads
      rw [Entry.at?_append] at stepwise
      obtain ⟨here, atPlace, further⟩ := Option.bind_eq_some_iff.mp stepwise
      obtain ⟨child, isChild, beyond⟩ := Option.bind_eq_some_iff.mp further
      obtain ⟨siblings, rfl, found⟩ := Entry.eq_directory_of_lookup isChild
      have noLink : ∀ target, child ≠ .link target := by
        rintro target rfl
        cases rest with
        | nil => cases beyond
        | cons _ _ => cases beyond
      rw [follow_name isName atPlace found noLink, cut]
      exact follow_names restAreNames (cut ▸ leads)

/-- The path of a place other than the root is cut into the names on the way there. -/
theorem segments_absolutePath
    {name : String}
    {rest : List String}
    (slashless : ∀ segment ∈ name :: rest, '/' ∉ segment.toList) :
    (absolutePath (name :: rest)).segments = "" :: name :: rest := by
  have slash : ("/" : String).toList = ['/'] := rfl
  have spelled : absolutePath (name :: rest) = ⟨String.intercalate "/" ("" :: name :: rest)⟩ := by
    refine congrArg Path.mk (String.toList_inj.mp ?_)
    simp [String.toList_intercalate, List.intercalate, slash]
  rw [spelled]
  exact Path.segments_intercalate (List.cons_ne_nil _ _)
    (List.forall_mem_cons.mpr ⟨by decide, slashless⟩)

/-- The path of a directory's place leads to it. -/
theorem locate_absolutePath
    {files : FileSystem}
    {place : List String}
    {entries : List (String × Entry)}
    (areNames : ∀ name ∈ place, IsEntryName name)
    (atPlace : files.root.at? place = some (.directory entries)) :
    files.locate (absolutePath place) = .ok place := by
  have nulless : ∀ name ∈ place, '\x00' ∉ name.toList := fun name member =>
    (areNames name member).nulless
  have notEmpty : (absolutePath place).text ≠ "" := by
    simp [absolutePath]
  cases place with
  | nil =>
      obtain ⟨root, directory⟩ := files
      cases atPlace
      refine locate_ok_iff.mpr ⟨notEmpty, by decide, ?_⟩
      have absolute : (absolutePath []).isAbsolute = true := by decide
      rw [absolute, if_pos rfl]
      rfl
  | cons name rest =>
      have segmented := segments_absolutePath fun segment member =>
        (areNames segment member).slashless
      have absolute : (absolutePath (name :: rest)).isAbsolute :=
        (Path.isAbsolute_iff segmented).mpr ⟨rfl, List.cons_ne_nil _ _⟩
      refine locate_ok_iff.mpr ⟨notEmpty, ?_, ?_⟩
      · rw [Path.mem_text_iff (by decide), segmented]
        rintro ⟨segment, listed, member⟩
        rcases List.mem_cons.mp listed with rfl | isName
        · simp at member
        · exact nulless segment isName member
      · obtain ⟨child, isChild, -⟩ := Option.bind_eq_some_iff.mp atPlace
        obtain ⟨siblings, isRoot, -⟩ := Entry.eq_directory_of_lookup isChild
        rw [if_pos absolute, segmented, follow_idle (by decide)]
        simp only [Entry.at?, isRoot, Entry.isDirectory, ↓reduceIte]
        rw [← isRoot]
        exact follow_names areNames atPlace

/-! ## Modules -/

/-- Whether no directory at, around or below a place holds an entry of a module file's name. -/
def IsModuleFree
    (files : FileSystem)
    (place : List String) :
    Prop :=
  ∀ other, other <+: place ∨ place <+: other →
    ∀ entries, files.root.at? other = some (.directory entries) →
      entries.lookup GoModule.fileName = none

/-- There are no modules where the whole tree has no entry of a module file's name. -/
theorem isModuleFree_of_lacks
    {files : FileSystem}
    (lacks : files.root.lacks GoModule.fileName)
    (place : List String) :
    files.IsModuleFree place := by
  intro other _ entries atOther
  exact Entry.lookup_of_lacks lacks atOther

/-- A directory without a module file holds no module. -/
theorem load_fst
    {files : FileSystem}
    {place : List String}
    {entries : List (String × Entry)}
    (areNames : ∀ name ∈ place, IsEntryName name)
    (atPlace : files.root.at? place = some (.directory entries))
    (absent : entries.lookup GoModule.fileName = none) :
    (GoModule.load files (absolutePath place)).1 = none := by
  have notFile :=
    isFile_join_absent (by decide) (locate_absolutePath areNames atPlace) atPlace absent
  simp only [GoModule.load, notFile, Bool.false_eq_true, ↓reduceIte]

end FileSystem

namespace ModuleCache

/-- Whether a cache knows of no module. -/
def KnowsNone
    (cache : ModuleCache) :
    Prop :=
  ∀ entry ∈ cache, entry.2 = none

/-- What a cache without modules knows of a place is that it has none. -/
theorem KnowsNone.lookup
    {cache : ModuleCache}
    (knowsNone : cache.KnowsNone)
    {place : List String}
    {known : Option GoModule}
    (found : cache.lookup place = some known) :
    known = none := by
  obtain ⟨before, behind, rfl, -⟩ := List.lookup_eq_some_iff.mp found
  exact knowsNone (place, known) (by simp)

/-- A search finds nothing where there is nothing to find. -/
theorem found_search
    {cache : ModuleCache}
    {files : FileSystem}
    (knowsNone : cache.KnowsNone) :
    ∀ {place : List String},
      (∀ outer, outer <:+ place → (GoModule.load files (pathOf outer)).1 = none) →
      (cache.search files place).found = none
  | [], nothing => by
      unfold search
      split
      · next known found => exact knowsNone.lookup found
      · exact nothing [] (List.suffix_refl _)
  | name :: outer, nothing => by
      have here := nothing (name :: outer) (List.suffix_refl _)
      unfold search
      split
      · next known found => exact knowsNone.lookup found
      · split
        · next module warnings loaded => simp [loaded] at here
        · exact found_search knowsNone fun further isOuter =>
            nothing further (isOuter.trans (List.suffix_cons name outer))

/-- A directory in a tree without modules has no import path, and no module gets known. -/
theorem importPath_of_isModuleFree
    {cache : ModuleCache}
    {files : FileSystem}
    {directory : Path}
    {place : List String}
    {entries : List (String × Entry)}
    (knowsNone : cache.KnowsNone)
    (located : files.locate directory = .ok place)
    (atPlace : files.root.at? place = some (.directory entries))
    (areNames : ∀ name ∈ place, IsEntryName name)
    (free : files.IsModuleFree place) :
    (cache.importPath files directory).1 = none ∧
      (cache.importPath files directory).2.1.KnowsNone := by
  have nothing : ∀ outer, outer <:+ place.reverse →
      (GoModule.load files (pathOf outer)).1 = none := by
    intro outer isOuter
    have isPrefix : outer.reverse <+: place := by
      rw [← List.reverse_suffix, List.reverse_reverse]
      exact isOuter
    obtain ⟨below, cut⟩ := isPrefix
    have reached := atPlace
    rw [← cut, Entry.at?_append] at reached
    obtain ⟨here, atOuter, further⟩ := Option.bind_eq_some_iff.mp reached
    have areOuterNames : ∀ name ∈ outer.reverse, IsEntryName name := fun name member =>
      areNames name (cut ▸ List.mem_append_left below member)
    obtain ⟨siblings, rfl⟩ : ∃ siblings, here = .directory siblings := by
      cases below with
      | nil => exact ⟨entries, Option.some.inj further⟩
      | cons name rest =>
          obtain ⟨child, isChild, -⟩ := Option.bind_eq_some_iff.mp further
          obtain ⟨siblings, isDirectory, -⟩ := Entry.eq_directory_of_lookup isChild
          exact ⟨siblings, isDirectory⟩
    exact FileSystem.load_fst areOuterNames atOuter
      (free outer.reverse (.inl ⟨below, cut⟩) siblings atOuter)
  have found := found_search knowsNone nothing
  simp only [importPath, located, found]
  refine ⟨rfl, fun entry member => ?_⟩
  rcases List.mem_append.mp member with isNew | known
  · obtain ⟨passed, -, rfl⟩ := List.mem_map.mp isNew
    rfl
  · exact knowsNone entry known

end ModuleCache

end Implementers
