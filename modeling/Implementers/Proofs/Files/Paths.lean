import Implementers.Files.FileSystem

namespace Implementers

/-!
# Paths of entries

The name of an entry joined to the path of its directory is the last segment and the last component
of the entry's path.  Going back from there leads to a path with the components of the directory,
though it may be spelled without idle segments at its end.
-/

/-! ## Segments -/

namespace Text

/-- Every text has a segment. -/
theorem segments_ne_nil
    (separator : Char)
    (text : List Char) :
    segments separator text ≠ [] := by
  intro empty
  cases text with
  | nil => simp [segments] at empty
  | cons character rest =>
      simp only [segments] at empty
      split at empty
      · cases empty
      · split at empty <;> cases empty

/-- Cutting a text at a separator is what the library calls splitting. -/
theorem segments_eq_splitOn
    (separator : Char)
    (text : List Char) :
    segments separator text = text.splitOn separator := by
  induction text with
  | nil => rfl
  | cons character rest inductionHypothesis =>
      simp only [segments, List.splitOn, List.splitOnP_cons_eq_if_modifyHead] at *
      have some := segments_ne_nil separator rest
      rw [inductionHypothesis] at some ⊢
      split
      · rfl
      · cases cut : rest.splitOnP (· == separator) with
        | nil => exact absurd cut some
        | cons _ _ => rfl

/-- A separator cuts a text into what is before it and what is behind it. -/
theorem segments_append
    (separator : Char)
    (before behind : List Char) :
    segments separator (before ++ separator :: behind) =
      segments separator before ++ segments separator behind := by
  simp only [segments_eq_splitOn, List.splitOn]
  exact List.splitOnP_append_cons _ _ (beq_self_eq_true separator)

/-- A text without separators is its only segment. -/
theorem segments_of_not_mem
    {separator : Char}
    {text : List Char}
    (absent : separator ∉ text) :
    segments separator text = [text] := by
  induction text with
  | nil => rfl
  | cons character rest inductionHypothesis =>
      obtain ⟨different, absentRest⟩ := not_or.mp (mt List.mem_cons.mpr absent)
      have unequal : (character == separator) = false := beq_false_of_ne (Ne.symm different)
      simp only [segments, unequal, Bool.false_eq_true, ↓reduceIte,
        inductionHypothesis absentRest]

/-- No segment has a separator in it. -/
theorem not_mem_of_mem_segments
    {separator : Char}
    {text segment : List Char}
    (member : segment ∈ segments separator text) :
    separator ∉ segment := by
  induction text generalizing segment with
  | nil =>
      obtain rfl := List.mem_singleton.mp member
      exact List.not_mem_nil
  | cons character rest inductionHypothesis =>
      simp only [segments] at member
      split at member
      · rcases List.mem_cons.mp member with rfl | later
        · exact List.not_mem_nil
        · exact inductionHypothesis later
      · next different =>
          have unequal : separator ≠ character := fun same => different (by simp [same])
          split at member
          · obtain rfl := List.mem_singleton.mp member
            simpa using unequal
          · next first others cut =>
              rcases List.mem_cons.mp member with rfl | later
              · have absent := inductionHypothesis (cut ▸ List.mem_cons_self)
                exact List.not_mem_cons_of_ne_of_not_mem unequal absent
              · exact inductionHypothesis (cut ▸ List.mem_cons_of_mem _ later)

/-- A character that is no separator stands in a text exactly when it stands in a segment. -/
theorem mem_iff_exists_segment
    {separator character : Char}
    (different : character ≠ separator)
    (text : List Char) :
    character ∈ text ↔ ∃ segment ∈ segments separator text, character ∈ segment := by
  induction text with
  | nil => simp [segments]
  | cons first rest inductionHypothesis =>
      rw [List.mem_cons, inductionHypothesis]
      simp only [segments]
      split
      · next isSeparator =>
          have unequal : character ≠ first := fun same =>
            different (same.trans (by simpa using isSeparator))
          simp [unequal]
      · split
        · next empty => exact absurd empty (segments_ne_nil separator rest)
        · next segment others cut =>
            simp only [cut, List.mem_cons, exists_eq_or_imp, or_assoc]

/-- Segments put together with separators between them are cut into the same segments. -/
theorem segments_intercalate
    {separator : Char}
    {parts : List (List Char)}
    (some : parts ≠ [])
    (absent : ∀ part ∈ parts, separator ∉ part) :
    segments separator ([separator].intercalate parts) = parts := by
  rw [segments_eq_splitOn]
  exact List.splitOn_intercalate separator absent some

end Text

/-! ## Names of entries -/

/-- Whether a name can be that of an entry in a directory. -/
structure IsEntryName
    (name : String) :
    Prop where
  notEmpty : name ≠ ""
  notCurrent : name ≠ "."
  notParent : name ≠ ".."
  slashless : '/' ∉ name.toList
  nulless : '\x00' ∉ name.toList
  short : Text.byteLength name.toList ≤ FileSystem.nameLimit

instance
    (name : String) :
    Decidable (IsEntryName name) :=
  decidable_of_iff
    (name ≠ "" ∧ name ≠ "." ∧ name ≠ ".." ∧ '/' ∉ name.toList ∧ '\x00' ∉ name.toList ∧
      Text.byteLength name.toList ≤ FileSystem.nameLimit)
    ⟨fun ⟨notEmpty, notCurrent, notParent, slashless, nulless, short⟩ =>
        ⟨notEmpty, notCurrent, notParent, slashless, nulless, short⟩,
      fun ⟨notEmpty, notCurrent, notParent, slashless, nulless, short⟩ =>
        ⟨notEmpty, notCurrent, notParent, slashless, nulless, short⟩⟩

namespace Path

/-- The name of an entry stands for itself. -/
theorem innerComponent?_name
    {name : String}
    (isName : IsEntryName name) :
    innerComponent? name = some (.normal name) := by
  unfold innerComponent?
  split
  · exact absurd rfl isName.notEmpty
  · exact absurd rfl isName.notCurrent
  · exact absurd rfl isName.notParent
  · rfl

/-- The name of an entry is no idle segment. -/
theorem isIdleSegment_name
    {name : String}
    (isName : IsEntryName name) :
    isIdleSegment name = false := by
  simp [isIdleSegment, innerComponent?_name isName]

/-- No segment of a path has a slash in it. -/
theorem slash_not_mem_of_mem_segments
    {path : Path}
    {segment : String}
    (member : segment ∈ path.segments) :
    '/' ∉ segment.toList := by
  obtain ⟨characters, listed, rfl⟩ := List.mem_map.mp member
  rw [String.toList_ofList]
  exact Text.not_mem_of_mem_segments listed

/-- The segments of a path are those of the spelling that puts them together. -/
theorem segments_intercalate
    {parts : List String}
    (some : parts ≠ [])
    (slashless : ∀ part ∈ parts, '/' ∉ part.toList) :
    segments ⟨String.intercalate "/" parts⟩ = parts := by
  have cut :
      Text.segments '/' (['/'].intercalate (parts.map String.toList)) =
        parts.map String.toList :=
    Text.segments_intercalate (by simpa using some) (by simpa using slashless)
  have slash : "/".toList = ['/'] := rfl
  simp only [segments, String.toList_intercalate, slash, cut, List.map_map]
  exact (List.map_congr_left fun part _ => String.ofList_toList).trans (List.map_id parts)

/-- A path begins at the root exactly when its first segment is empty and others follow. -/
theorem isAbsolute_iff
    {path : Path}
    {first : String}
    {rest : List String}
    (spelled : path.segments = first :: rest) :
    path.isAbsolute ↔ first = "" ∧ rest ≠ [] := by
  obtain ⟨text⟩ := path
  simp only [isAbsolute, segments] at spelled ⊢
  generalize text.toList = characters at spelled ⊢
  cases characters with
  | nil =>
      obtain ⟨rfl, rfl⟩ := List.cons.inj spelled
      simp
  | cons character others =>
      have some := Text.segments_ne_nil '/' others
      simp only [Text.segments] at spelled
      split at spelled
      · next slash =>
          obtain ⟨rfl, rfl⟩ := List.cons.inj spelled
          simpa [some] using slash
      · next different =>
          split at spelled
          · next empty => exact absurd empty some
          · obtain ⟨rfl, rfl⟩ := List.cons.inj spelled
            simpa [String.ofList_eq_empty_iff] using different

/-- A path is empty exactly when its only segment is. -/
theorem text_eq_empty_iff
    (path : Path) :
    path.text = "" ↔ path.segments = [""] := by
  constructor
  · intro empty
    simp [segments, empty, Text.segments]
  · intro single
    have noSlash : '/' ∉ path.text.toList := by
      intro slash
      obtain ⟨before, behind, cut⟩ := List.append_of_mem slash
      have length := congrArg List.length single
      have first := List.length_pos_iff.mpr (Text.segments_ne_nil '/' before)
      have second := List.length_pos_iff.mpr (Text.segments_ne_nil '/' behind)
      simp only [segments, cut, Text.segments_append, List.map_append, List.length_append,
        List.length_map, List.length_singleton] at length
      omega
    simp only [segments, Text.segments_of_not_mem noSlash, List.map_cons, List.map_nil,
      String.ofList_toList] at single
    exact List.singleton_inj.mp single

/-- A character other than a slash stands in a path exactly when it stands in a segment. -/
theorem mem_text_iff
    {character : Char}
    (different : character ≠ '/')
    (path : Path) :
    character ∈ path.text.toList ↔ ∃ segment ∈ path.segments, character ∈ segment.toList := by
  rw [Text.mem_iff_exists_segment different]
  constructor
  · rintro ⟨segment, listed, member⟩
    exact ⟨_, List.mem_map_of_mem listed, by rwa [String.toList_ofList]⟩
  · rintro ⟨_, listed, member⟩
    obtain ⟨segment, inText, rfl⟩ := List.mem_map.mp listed
    exact ⟨segment, inText, by rwa [String.toList_ofList] at member⟩

/-! ## Joining names -/

/-- The spelling of the path of an entry, beside that of the path of its directory. -/
theorem exists_segments_join
    {directory : Path}
    {name : String}
    (some : directory.text ≠ "")
    (slashless : '/' ∉ name.toList) :
    ∃ first kept idle, directory.segments = first :: (kept ++ idle) ∧ (idle = [] ∨ idle = [""]) ∧
      (directory.join name).segments = first :: (kept ++ [name]) := by
  have only : Text.segments '/' name.toList = [name.toList] := Text.segments_of_not_mem slashless
  have notEmpty : directory.text.isEmpty = false := by
    simpa [String.isEmpty_iff] using some
  by_cases trailing : directory.text.toList.getLast? = Option.some '/'
  · obtain ⟨before, cut⟩ := List.getLast?_eq_some_iff.mp trailing
    obtain ⟨first, kept, segmented⟩ := List.exists_cons_of_ne_nil (Text.segments_ne_nil '/' before)
    refine ⟨String.ofList first, kept.map String.ofList, [""], ?_, .inr rfl, ?_⟩
    · have behind := Text.segments_append '/' before []
      simp [segments, cut, behind, segmented, Text.segments]
    · have behind := Text.segments_append '/' before name.toList
      simp [join, segments, cut, behind, segmented, only]
  · obtain ⟨first, kept, segmented⟩ :=
      List.exists_cons_of_ne_nil (Text.segments_ne_nil '/' directory.text.toList)
    refine ⟨String.ofList first, kept.map String.ofList, [], ?_, .inl rfl, ?_⟩
    · simp [segments, segmented]
    · have behind := Text.segments_append '/' directory.text.toList name.toList
      have notTrailing : (directory.text.toList.getLast? == Option.some '/') = false :=
        beq_false_of_ne trailing
      simp [join, notEmpty, notTrailing, segments, behind, segmented, only]

/-- The path of an entry begins where the path of its directory does. -/
theorem isAbsolute_join
    {directory : Path}
    (some : directory.text ≠ "")
    (name : String) :
    (directory.join name).isAbsolute = directory.isAbsolute := by
  obtain ⟨text⟩ := directory
  have notEmpty : text.toList ≠ [] := by
    simpa using some
  obtain ⟨first, rest, spelled⟩ := List.exists_cons_of_ne_nil notEmpty
  simp only [join, isAbsolute]
  split <;> simp [spelled]

/-- The components of a path by its first segment and the segments behind that. -/
theorem components_of_segments
    {path : Path}
    {first : String}
    {rest : List String}
    (spelled : path.segments = first :: rest) :
    path.components =
      (firstComponent? path.isAbsolute first).toList ++ rest.filterMap innerComponent? := by
  simp only [components, spelled]

/-- Idle segments stand for no component. -/
theorem filterMap_idle
    {idle : List String}
    (areIdle : ∀ segment ∈ idle, isIdleSegment segment) :
    idle.filterMap innerComponent? = [] := by
  rw [List.filterMap_eq_nil_iff]
  intro segment member
  simpa [isIdleSegment] using areIdle segment member

/-- An entry is one component further than its directory. -/
theorem components_join
    {directory : Path}
    {name : String}
    (some : directory.text ≠ "")
    (isName : IsEntryName name) :
    (directory.join name).components = directory.components ++ [.normal name] := by
  obtain ⟨first, kept, idle, spelled, few, joined⟩ := exists_segments_join some isName.slashless
  have areIdle : ∀ segment ∈ idle, isIdleSegment segment := by
    rcases few with rfl | rfl <;> simp [isIdleSegment, innerComponent?]
  rw [components_of_segments joined, components_of_segments spelled, isAbsolute_join some]
  simp [List.filterMap_append, filterMap_idle areIdle, innerComponent?_name isName]

/-- An entry's path leads to a file of the entry's name. -/
theorem fileName?_join
    {directory : Path}
    {name : String}
    (some : directory.text ≠ "")
    (isName : IsEntryName name) :
    (directory.join name).fileName? = Option.some name := by
  simp [fileName?, components_join some isName]

/-- A path with an entry's name at its end is not empty. -/
theorem join_ne_empty
    {directory : Path}
    {name : String}
    (isName : IsEntryName name) :
    (directory.join name).text ≠ "" := by
  have notEmpty := isName.notEmpty
  unfold join
  split <;> simp [notEmpty]

/-! ## Going back -/

/-- Two spellings that differ in idle segments at the end, where the first one has no more. -/
structure EndsIdly
    (short long : Path) :
    Prop where
  spelled :
    ∃ first kept few many, short.segments = first :: (kept ++ few) ∧
      long.segments = first :: (kept ++ many) ∧ (∀ segment ∈ few, isIdleSegment segment) ∧
      (∀ segment ∈ many, isIdleSegment segment) ∧ (few ≠ [] → many ≠ [])
  sameRoot : short.isAbsolute = long.isAbsolute

/-- Spellings that differ in idle segments at the end have the same components. -/
theorem EndsIdly.components
    {short long : Path}
    (ends : EndsIdly short long) :
    short.components = long.components := by
  obtain ⟨first, kept, few, many, shortly, longly, fewIdle, manyIdle, _⟩ := ends.spelled
  rw [components_of_segments shortly, components_of_segments longly, ends.sameRoot,
    List.filterMap_append, List.filterMap_append, filterMap_idle fewIdle, filterMap_idle manyIdle]

/-- Going back drops the last name and the idle segments in front of it. -/
theorem parent?_of_segments
    {path : Path}
    {first name : String}
    {kept : List String}
    (spelled : path.segments = first :: (kept ++ [name]))
    (isName : IsEntryName name) :
    ∃ before dropped, kept = before ++ dropped ∧ (∀ segment ∈ dropped, isIdleSegment segment) ∧
      path.parent? =
        some ⟨if before = [] then
            if path.isAbsolute then "/" else first
          else
            String.intercalate "/" (first :: before)⟩ := by
  refine ⟨(kept.reverse.dropWhile isIdleSegment).reverse,
    (kept.reverse.takeWhile isIdleSegment).reverse, ?_, ?_, ?_⟩
  · rw [← List.reverse_append, List.takeWhile_append_dropWhile, List.reverse_reverse]
  · intro segment member
    exact List.all_eq_true.mp List.all_takeWhile segment (List.mem_reverse.mp member)
  · simp only [parent?, spelled, List.reverse_append, List.reverse_singleton,
      List.singleton_append, List.dropWhile_cons, isIdleSegment_name isName, Bool.false_eq_true,
      ↓reduceIte]
    cases (kept.reverse.dropWhile isIdleSegment).reverse <;> simp

/-- The root of the file system ends like a path with idle segments alone behind its slash. -/
theorem endsIdly_root
    {path : Path}
    {idle : List String}
    (spelled : path.segments = "" :: idle)
    (some : idle ≠ [])
    (isIdle : ∀ segment ∈ idle, isIdleSegment segment) :
    EndsIdly ⟨"/"⟩ path where
  spelled :=
    ⟨"", [], [""], idle, by decide, spelled, by simp [isIdleSegment, innerComponent?], isIdle,
      fun _ => some⟩
  sameRoot := by
    have absolute : path.isAbsolute = true := (isAbsolute_iff spelled).mpr ⟨rfl, some⟩
    rw [absolute]
    rfl

/-- The first segments of a path end like the path when idle segments alone stand behind them. -/
theorem endsIdly_kept
    {path : Path}
    {first : String}
    {kept idle : List String}
    (spelled : path.segments = first :: (kept ++ idle))
    (rooted : first = "" → kept ≠ [])
    (isIdle : ∀ segment ∈ idle, isIdleSegment segment) :
    EndsIdly ⟨String.intercalate "/" (first :: kept)⟩ path := by
  have slashless : ∀ segment ∈ first :: kept, '/' ∉ segment.toList := by
    intro segment member
    refine slash_not_mem_of_mem_segments (?_ : segment ∈ path.segments)
    rw [spelled]
    exact List.mem_cons.mpr ((List.mem_cons.mp member).imp_right (List.mem_append_left _))
  have short := segments_intercalate (List.cons_ne_nil first kept) slashless
  refine ⟨⟨first, kept, [], idle, by rw [short, List.append_nil], spelled, by simp, isIdle,
    by simp⟩, ?_⟩
  rw [Bool.eq_iff_iff, isAbsolute_iff short, isAbsolute_iff spelled]
  refine and_congr_right fun isEmpty => ?_
  exact iff_of_true (rooted isEmpty) (List.append_ne_nil_of_left_ne_nil (rooted isEmpty) idle)

/-- The directory of an entry is found by going back from the entry's path. -/
theorem exists_parent_join
    {directory : Path}
    {name : String}
    (some : directory.text ≠ "")
    (isName : IsEntryName name) :
    ∃ parent, (directory.join name).parent? = Option.some parent ∧ EndsIdly parent directory := by
  obtain ⟨first, kept, idle, spelled, few, joined⟩ := exists_segments_join some isName.slashless
  obtain ⟨before, dropped, rfl, droppedIsIdle, back⟩ := parent?_of_segments joined isName
  have idleIsIdle : ∀ segment ∈ dropped ++ idle, isIdleSegment segment := by
    refine List.forall_mem_append.mpr ⟨droppedIsIdle, ?_⟩
    rcases few with rfl | rfl
    · exact List.forall_mem_nil _
    · exact List.forall_mem_singleton.mpr rfl
  rw [List.append_assoc] at spelled
  rw [isAbsolute_join some] at back
  refine ⟨_, back, ?_⟩
  by_cases atRoot : first = "" ∧ before = []
  · obtain ⟨rfl, rfl⟩ := atRoot
    have othersFollow : dropped ++ idle ≠ [] := by
      intro empty
      rw [List.nil_append, empty, ← text_eq_empty_iff] at spelled
      exact some spelled
    have absolute : directory.isAbsolute = true :=
      (isAbsolute_iff spelled).mpr ⟨rfl, othersFollow⟩
    simp only [↓reduceIte, absolute]
    exact endsIdly_root spelled othersFollow idleIsIdle
  · have text :
        (if before = [] then if directory.isAbsolute then "/" else first
          else String.intercalate "/" (first :: before)) =
          String.intercalate "/" (first :: before) := by
      split
      · next isBefore =>
          have relative : ¬directory.isAbsolute := fun absolute =>
            atRoot ⟨((isAbsolute_iff spelled).mp absolute).1, isBefore⟩
          rw [if_neg relative, isBefore]
          rfl
      · rfl
    rw [text]
    exact endsIdly_kept spelled (fun isEmpty isBefore => atRoot ⟨isEmpty, isBefore⟩) idleIsIdle

/-! ## Order -/

/-- Entries of one directory are ordered by their names. -/
theorem orderComponents_append
    (directory : List Component)
    (left right : String) :
    orderComponents (directory ++ [.normal left]) (directory ++ [.normal right]) =
      compare left right := by
  induction directory with
  | nil =>
      simp only [List.nil_append, orderComponents, Component.order]
      cases compare left right <;> rfl
  | cons component rest inductionHypothesis =>
      have same : component.order component = .eq := by
        cases component <;> simp [Component.order]
      simp only [List.cons_append, orderComponents, same, inductionHypothesis]

end Path

end Implementers
