import Implementers.Proofs.Order.Survey

/-!
# Declarations in another order

The declarations of each file of a package may be arranged in another order.  Every arrangement can
be surveyed from one place where all positions are forgotten, as the same questions in groups, one
for the functions and one for the types of each file, whose order stays while the questions within
them change places.
-/

namespace Implementers

open Syntax (TypeSpec FuncDecl)

/--
Two files with the same declarations, each of them wherever it stands and in whatever order.  The
imports are the same.
-/
structure FileScope.Rearranged
    (before after : FileScope) :
    Prop where
  index : after.index = before.index
  path : after.path = before.path
  imports : after.imports = before.imports
  dotImports : after.dotImports = before.dotImports
  types :
    (before.source.types.map (TypeSpec.moved Relocation.forget.span)).Perm
      (after.source.types.map (TypeSpec.moved Relocation.forget.span))
  funcs :
    (before.source.funcs.map (FuncDecl.moved Relocation.forget.span)).Perm
      (after.source.funcs.map (FuncDecl.moved Relocation.forget.span))

/-- Two packages whose files have the same declarations in another order. -/
def Rearranged
    (files arranged : List FileScope) :
    Prop :=
  List.Forall₂ FileScope.Rearranged files arranged

/-- A file with one of its declarations moved to the front. -/
inductive FileScope.Fronted
    (file : FileScope) :
    FileScope → Prop where
  | type
      (earlier later : List TypeSpec)
      (spec : TypeSpec)
      (split : file.source.types = earlier ++ spec :: later) :
      Fronted file
        { file with source := { file.source with types := spec :: (earlier ++ later) } }
  | function
      (earlier later : List FuncDecl)
      (func : FuncDecl)
      (split : file.source.funcs = earlier ++ func :: later) :
      Fronted file
        { file with source := { file.source with funcs := func :: (earlier ++ later) } }

/-- A package with one declaration moved to the front of its file. -/
def Fronted
    (files fronted : List FileScope) :
    Prop :=
  ∃ earlier file file' later,
    files = earlier ++ file :: later ∧ file.Fronted file' ∧ fronted = earlier ++ file' :: later

namespace FileScope

theorem Rearranged.refl
    (file : FileScope) :
    file.Rearranged file :=
  ⟨rfl, rfl, rfl, rfl, .refl _, .refl _⟩

/-- Moving a declaration to the front rearranges a file. -/
theorem Fronted.rearranged
    {file file' : FileScope}
    (fronted : file.Fronted file') :
    file.Rearranged file' := by
  cases fronted with
  | type earlier later spec split =>
      refine ⟨rfl, rfl, rfl, rfl, ?_, .refl _⟩
      rw [split]
      exact List.perm_middle.map _
  | function earlier later func split =>
      refine ⟨rfl, rfl, rfl, rfl, .refl _, ?_⟩
      rw [split]
      exact List.perm_middle.map _

/-- Where positions are forgotten, a rearranged file is in the same place. -/
theorem Rearranged.forget_file
    {before after : FileScope}
    (rearranged : before.Rearranged after) :
    Relocation.forget.file after = Relocation.forget.file before := by
  simp only [Relocation.forget, rearranged.index, rearranged.path, rearranged.imports,
    rearranged.dotImports]

end FileScope

/-- Moving a declaration to the front of its file rearranges a package. -/
theorem Fronted.rearranged
    {files fronted : List FileScope}
    (isFronted : Fronted files fronted) :
    Rearranged files fronted := by
  obtain ⟨earlier, file, file', later, rfl, moved, rfl⟩ := isFronted
  have same (others : List FileScope) : Rearranged others others :=
    List.forall₂_same.mpr fun other _ => .refl other
  exact List.rel_append (same earlier) (.cons moved.rearranged (same later))

/-! ## Questions in groups -/

/-- The declaration that a type declaration of a file makes, unless it is blank. -/
def FileScope.declOf?
    (file : FileScope)
    (spec : TypeSpec) :
    Option TypeDecl :=
  spec.name.bind fun ident =>
    if ident.text == blankName then
      none
    else
      some ⟨ident.text, file, spec, ident.span.start⟩

/-- A declaration in another place is made by the type declaration in that place. -/
theorem FileScope.decl_declOf?
    (file : FileScope)
    (spec : TypeSpec) :
    (file.declOf? spec).map Relocation.forget.decl =
      (Relocation.forget.file file).declOf? (spec.moved Relocation.forget.span) := by
  obtain ⟨span, name, generic, isAlias, type⟩ := spec
  cases name with
  | none => rfl
  | some ident =>
      by_cases blank : (ident.text == blankName) = true
      · exact (congrArg (Option.map _) (if_pos blank)).trans (if_pos blank).symm
      · exact (congrArg (Option.map _) (if_neg blank)).trans (if_neg blank).symm

namespace FileScope

/-- The questions about the functions of a file, where positions are forgotten. -/
def functionQuestions
    (file : FileScope) :
    List Question :=
  (file.source.funcs.map (FuncDecl.moved Relocation.forget.span)).map
    (.function (Relocation.forget.file file))

/-- The questions about the types of a file, where positions are forgotten. -/
def typeQuestions
    (file : FileScope) :
    List Question :=
  ((file.source.types.map (TypeSpec.moved Relocation.forget.span)).filterMap
    (Relocation.forget.file file).declOf?).map .type

/-- The declarations of a file where positions are forgotten. -/
theorem forget_declsOf
    (file : FileScope) :
    (Scope.declsOf file).map Relocation.forget.decl =
      (file.source.types.map (TypeSpec.moved Relocation.forget.span)).filterMap
        (Relocation.forget.file file).declOf? := by
  rw [List.filterMap_map, Scope.declsOf, List.map_filterMap]
  exact List.filterMap_congr fun spec _ => file.decl_declOf? spec

theorem typeQuestions_eq
    (file : FileScope) :
    file.typeQuestions =
      (Scope.declsOf file).map fun decl => (Question.type decl).moved Relocation.forget := by
  rw [typeQuestions, ← file.forget_declsOf, List.map_map]
  rfl

/-- A type of a file can be made the first one of the file. -/
theorem exists_fronted_type
    (file : FileScope)
    {question : Question}
    (member : question ∈ file.typeQuestions) :
    ∃ fronted rest,
      file.Fronted fronted ∧ fronted.functionQuestions = file.functionQuestions ∧
        fronted.typeQuestions = question :: rest := by
  obtain ⟨decl, declMember, rfl⟩ := List.mem_map.mp member
  obtain ⟨moved, movedMember, makes⟩ := List.mem_filterMap.mp declMember
  obtain ⟨spec, specMember, rfl⟩ := List.mem_map.mp movedMember
  obtain ⟨earlier, later, split⟩ := List.append_of_mem specMember
  refine ⟨_, (((earlier ++ later).map (TypeSpec.moved Relocation.forget.span)).filterMap
    (Relocation.forget.file file).declOf?).map .type, .type earlier later spec split, rfl, ?_⟩
  exact congrArg (List.map Question.type) (List.filterMap_cons_some makes)

/-- A function of a file can be made the first one of the file. -/
theorem exists_fronted_function
    (file : FileScope)
    {question : Question}
    (member : question ∈ file.functionQuestions) :
    ∃ fronted rest,
      file.Fronted fronted ∧ fronted.functionQuestions = question :: rest := by
  obtain ⟨moved, movedMember, rfl⟩ := List.mem_map.mp member
  obtain ⟨func, funcMember, rfl⟩ := List.mem_map.mp movedMember
  obtain ⟨earlier, later, split⟩ := List.append_of_mem funcMember
  exact ⟨_, _, .function earlier later func split, rfl⟩

variable
  {before after : FileScope}
  (rearranged : before.Rearranged after)

include rearranged

theorem Rearranged.functionQuestions :
    before.functionQuestions.Perm after.functionQuestions := by
  rw [FileScope.functionQuestions, FileScope.functionQuestions, rearranged.forget_file]
  exact rearranged.funcs.map _

theorem Rearranged.declsOf :
    ((Scope.declsOf before).map Relocation.forget.decl).Perm
      ((Scope.declsOf after).map Relocation.forget.decl) := by
  rw [forget_declsOf, forget_declsOf, rearranged.forget_file]
  exact rearranged.types.filterMap _

theorem Rearranged.typeQuestions :
    before.typeQuestions.Perm after.typeQuestions := by
  rw [FileScope.typeQuestions, FileScope.typeQuestions, rearranged.forget_file]
  exact (rearranged.types.filterMap _).map _

end FileScope

/-- The questions about a package in groups, where positions are forgotten. -/
def questionGroups
    (files : List FileScope) :
    List (List Question) :=
  files.map FileScope.functionQuestions ++ files.map FileScope.typeQuestions

/-- In another arrangement the questions change places within their groups. -/
theorem Rearranged.perm_groups
    {files arranged : List FileScope}
    (rearranged : Rearranged files arranged) :
    List.Forall₂ List.Perm (questionGroups files) (questionGroups arranged) := by
  refine List.rel_append ?_ ?_ <;> rw [List.forall₂_map_left_iff, List.forall₂_map_right_iff]
  · exact rearranged.imp fun _ _ file => file.functionQuestions
  · exact rearranged.imp fun _ _ file => file.typeQuestions

/-- The scope of files in which no name is declared twice. -/
def Scope.opened
    (package : PackageId)
    (files : List FileScope) :
    Scope :=
  ⟨package, files, files.flatMap Scope.declsOf⟩

/-- The questions about a package where positions are forgotten are those of its groups. -/
theorem Scope.questions_opened
    (package : PackageId)
    (files : List FileScope) :
    (Scope.opened package files).questions.map (Question.moved Relocation.forget) =
      (questionGroups files).flatten := by
  rw [moved_questions, questionGroups, List.flatten_append]
  congr 1
  · simp only [Scope.funcDecls, Scope.opened, List.map_flatMap, List.map_map]
    rw [← List.flatMap_def]
    congr 1
    funext file
    rw [FileScope.functionQuestions, List.map_map]
    rfl
  · simp only [Scope.opened, List.map_flatMap]
    rw [← List.flatMap_def]
    congr 1
    funext file
    exact file.typeQuestions_eq.symm

/--
A question of a group can be made the first one of its group by moving its declaration to the front
of its file.
-/
theorem exists_fronted
    {files : List FileScope}
    {earlier later : List (List Question)}
    {group : List Question}
    {question : Question}
    (split : questionGroups files = earlier ++ group :: later)
    (member : question ∈ group) :
    ∃ fronted rest,
      Fronted files fronted ∧
        (questionGroups fronted).flatten = earlier.flatten ++ question :: rest := by
  have ofTypes (before : List (List Question))
      (splitTypes : files.map FileScope.typeQuestions = before ++ group :: later)
      (sameEarlier : earlier = files.map FileScope.functionQuestions ++ before) :
      ∃ fronted rest,
        Fronted files fronted ∧
          (questionGroups fronted).flatten = earlier.flatten ++ question :: rest := by
    obtain ⟨filesBefore, others, rfl, rfl, ofOthers⟩ := List.map_eq_append_iff.mp splitTypes
    obtain ⟨file, filesAfter, rfl, rfl, rfl⟩ := List.map_eq_cons_iff.mp ofOthers
    obtain ⟨fronted, rest, moved, sameFuncs, first⟩ := file.exists_fronted_type member
    refine ⟨filesBefore ++ fronted :: filesAfter,
      rest ++ (filesAfter.map FileScope.typeQuestions).flatten,
      ⟨filesBefore, file, fronted, filesAfter, rfl, moved, rfl⟩, ?_⟩
    simp only [sameEarlier, questionGroups, List.map_append, List.map_cons, List.flatten_append,
      List.flatten_cons, sameFuncs, first, List.cons_append, List.append_assoc]
  rcases List.append_eq_append_iff.mp split with ⟨before, same, splitTypes⟩ | ⟨after, ofFuncs, rest⟩
  · exact ofTypes before splitTypes same
  · cases after with
    | nil =>
        rw [List.append_nil] at ofFuncs
        exact ofTypes [] rest.symm (by rw [List.append_nil, ofFuncs])
    | cons _ after =>
        obtain ⟨rfl, rfl⟩ := List.cons.inj rest
        obtain ⟨filesBefore, others, rfl, rfl, ofOthers⟩ := List.map_eq_append_iff.mp ofFuncs
        obtain ⟨file, filesAfter, rfl, rfl, rfl⟩ := List.map_eq_cons_iff.mp ofOthers
        obtain ⟨fronted, rest, moved, first⟩ := file.exists_fronted_function member
        refine ⟨filesBefore ++ fronted :: filesAfter,
          rest ++ ((filesAfter.map FileScope.functionQuestions).flatten ++
            ((filesBefore ++ fronted :: filesAfter).map FileScope.typeQuestions).flatten),
          ⟨filesBefore, file, fronted, filesAfter, rfl, moved, rfl⟩, ?_⟩
        simp only [questionGroups, List.map_append, List.map_cons, List.flatten_append,
          List.flatten_cons, first, List.cons_append, List.append_assoc]

end Implementers
