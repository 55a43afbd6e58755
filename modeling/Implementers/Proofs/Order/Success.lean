import Implementers.Proofs.Order.Arrangement

/-!
# When the order of declarations matters

All arrangements of a package resolve as soon as one of them does and so does every arrangement that
moves a single declaration to the front of its file.
-/

namespace Implementers

namespace Scope

/-- Declarations can be joined when no name is given twice. -/
theorem addDecls_of_nodup
    (added : List TypeDecl) :
    ∀ {earlier : List TypeDecl},
      ((earlier ++ added).map TypeDecl.name).Nodup →
      addDecls earlier added = .ok (earlier ++ added) := by
  induction added with
  | nil =>
      intro earlier _
      rw [List.append_nil, addDecls]
  | cons decl rest inductionHypothesis =>
      intro earlier distinct
      have absent : findDecl? earlier decl.name = none := by
        refine List.find?_eq_none.mpr fun other member same => ?_
        rw [List.map_append, List.nodup_append] at distinct
        exact distinct.2.2 other.name (List.mem_map_of_mem member) decl.name
          (List.mem_map_of_mem List.mem_cons_self) (by simpa using same)
      have split : earlier ++ decl :: rest = (earlier ++ [decl]) ++ rest := by
        rw [List.append_assoc, List.singleton_append]
      rw [split] at distinct ⊢
      simp only [addDecls, absent, inductionHypothesis distinct]

/-- The scope of a package's files, and when there is one. -/
theorem ofFiles_ok
    {package : PackageId}
    {files : List FileScope}
    {scope : Scope} :
    ofFiles package files = .ok scope ↔
      scope = opened package files ∧ ((opened package files).decls.map TypeDecl.name).Nodup := by
  unfold ofFiles
  constructor
  · intro answered
    cases joined : addDecls [] (files.flatMap declsOf) with
    | error _ =>
        rw [joined] at answered
        cases answered
    | ok decls =>
        rw [joined] at answered
        cases answered
        obtain ⟨rfl, distinct⟩ := addDecls_ok _ joined .nil
        exact ⟨rfl, distinct⟩
  · rintro ⟨rfl, distinct⟩
    rw [@addDecls_of_nodup (files.flatMap declsOf) [] distinct]
    rfl

/-- The order of declarations does not matter for finding them by their names. -/
theorem findDecl?_perm
    {decls arranged : List TypeDecl}
    (perm : decls.Perm arranged)
    (distinct : (decls.map TypeDecl.name).Nodup)
    (name : String) :
    findDecl? decls name = findDecl? arranged name := by
  have arrangedDistinct := (perm.map TypeDecl.name).nodup_iff.mp distinct
  ext decl
  rw [findDecl?_eq_some_iff distinct, findDecl?_eq_some_iff arrangedDistinct, perm.mem_iff]

/-- A package where all positions are forgotten. -/
def forgotten
    (scope : Scope) :
    Scope :=
  ⟨scope.package, [], scope.decls.map Relocation.forget.decl⟩

theorem names_forget
    (decls : List TypeDecl) :
    (decls.map Relocation.forget.decl).map TypeDecl.name = decls.map TypeDecl.name := by
  rw [List.map_map]
  rfl

/-- A package that has the same declarations in another order is in the same place. -/
theorem moves_forgotten
    {scope other : Scope}
    (package : other.package = scope.package)
    (perm :
      (other.decls.map Relocation.forget.decl).Perm (scope.decls.map Relocation.forget.decl))
    (distinct : (other.decls.map TypeDecl.name).Nodup) :
    Relocation.forget.Moves other scope.forgotten where
  package := package.symm
  size := by
    have sameLength := perm.length_eq
    simpa [forgotten] using sameLength.symm
  lookup name := by
    rw [lookup?, lookup?, forgotten, ← findDecl?_perm perm (by rwa [names_forget]), findDecl?,
      List.find?_map]
    rfl

end Scope

/-- A package resolves when no name is declared twice and its declarations come to symbols. -/
theorem resolvePackage_isOk_iff
    {package : PackageId}
    {files : List FileScope} :
    (resolvePackage package files).isOk = true ↔
      ((Scope.opened package files).decls.map TypeDecl.name).Nodup ∧
        Nonempty (Scope.opened package files).Resolution := by
  constructor
  · intro isOk
    obtain ⟨answer, resolved⟩ := exists_ok_of_isOk isOk
    obtain ⟨scope, resolution, opened, _, _⟩ := resolvePackage_ok resolved
    obtain ⟨rfl, distinct⟩ := Scope.ofFiles_ok.mp opened
    exact ⟨distinct, ⟨resolution⟩⟩
  · rintro ⟨distinct, ⟨resolution⟩⟩
    have opened := Scope.ofFiles_ok.mpr ⟨rfl, distinct⟩
    have answered := Scope.symbols_ok.mpr ⟨resolution, rfl, rfl⟩
    simp only [resolvePackage, opened, bind, Except.bind, answered]
    rfl

namespace Rearranged

variable
  {files arranged : List FileScope}
  (rearranged : Rearranged files arranged)
  (package : PackageId)

include rearranged

/-- A rearranged package has the same declarations. -/
theorem perm_decls :
    ((Scope.opened package files).decls.map Relocation.forget.decl).Perm
      ((Scope.opened package arranged).decls.map Relocation.forget.decl) := by
  simp only [Scope.opened, List.map_flatMap]
  rw [List.flatMap_def, List.flatMap_def]
  apply List.Perm.flatten_congr
  rw [List.forall₂_map_left_iff, List.forall₂_map_right_iff]
  exact rearranged.imp fun _ _ file => file.declsOf

theorem nodup_names_iff :
    ((Scope.opened package files).decls.map TypeDecl.name).Nodup ↔
      ((Scope.opened package arranged).decls.map TypeDecl.name).Nodup := by
  have perm := (rearranged.perm_decls package).map TypeDecl.name
  rw [Scope.names_forget, Scope.names_forget] at perm
  exact perm.nodup_iff

/-- Where positions are forgotten, a rearranged package is in the same place. -/
theorem moves
    (distinct : ((Scope.opened package files).decls.map TypeDecl.name).Nodup) :
    Relocation.forget.Moves (Scope.opened package arranged)
      (Scope.opened package files).forgotten :=
  Scope.moves_forgotten rfl (rearranged.perm_decls package).symm
    ((rearranged.nodup_names_iff package).mp distinct)

/-- The questions about a rearranged package are the same where positions are forgotten. -/
theorem perm_questions :
    (questionGroups files).flatten.Perm (questionGroups arranged).flatten :=
  List.Perm.flatten_congr rearranged.perm_groups

/-- Where an arrangement resolves, its questions are answered with positions forgotten. -/
theorem survey
    (distinct : ((Scope.opened package files).decls.map TypeDecl.name).Nodup)
    (resolution : (Scope.opened package arranged).Resolution) :
    ∃ entries surveyed,
      Resolve.askAll (Scope.opened package files).forgotten.ask
          (questionGroups arranged).flatten .initial = (.ok entries, surveyed) ∧
        resolution.known.Mirrors Relocation.forget.underlying surveyed ∧
        resolution.table.Alike (.joinAll entries) ∧ (MethodTable.joinAll entries).Distinct := by
  obtain ⟨entries, surveyed, answered, mirrors, corresponds, distinctMethods⟩ :=
    resolution.survey (rearranged.moves package distinct)
  rw [Scope.questions_opened] at answered
  exact ⟨entries, surveyed, answered, mirrors, corresponds.alike, distinctMethods⟩

end Rearranged

/-- The same questions in another order find the same methods. -/
theorem Scope.alike_of_perm
    {scope : Scope}
    {questions arranged : List Question}
    {entries entries' : List MethodTable}
    {after after' : ScopeState}
    (perm : questions.Perm arranged)
    (answered : Resolve.askAll scope.ask questions .initial = (.ok entries, after))
    (answered' : Resolve.askAll scope.ask arranged .initial = (.ok entries', after')) :
    (MethodTable.joinAll entries).Alike (.joinAll entries') :=
  MethodTable.alike_joinAll
    ((paired_of_perm scope.eager_ask perm (ScopeState.initial_coherent scope) answered
      answered').imp fun _ _ ⟨_, corresponds, corresponds'⟩ =>
        corresponds.alike.trans corresponds'.alike.symm)

/--
Every arrangement of a package resolves when one of them does and so do all those that move a single
declaration to the front of its file.
-/
theorem isOk_of_fronted
    {package : PackageId}
    {files resolving arranged : List FileScope}
    (rearrangedResolving : Rearranged files resolving)
    (resolves : (resolvePackage package resolving).isOk = true)
    (fronted : ∀ fronted, Fronted files fronted → (resolvePackage package fronted).isOk = true)
    (rearranged : Rearranged files arranged) :
    (resolvePackage package arranged).isOk = true := by
  obtain ⟨distinctResolving, ⟨resolution⟩⟩ := resolvePackage_isOk_iff.mp resolves
  have distinct := (rearrangedResolving.nodup_names_iff package).mpr distinctResolving
  obtain ⟨entries, surveyed, answered, _, _, distinctMethods⟩ :=
    rearrangedResolving.survey package distinct resolution
  obtain ⟨entries', surveyed', answered'⟩ :=
    askAll_of_fronted (Scope.opened package files).forgotten.eager_ask rearranged.perm_groups
      (ScopeState.initial_coherent _).ahead (by
        intro earlier group later question split member
        obtain ⟨frontedFiles, rest, isFronted, first⟩ := exists_fronted split member
        obtain ⟨_, ⟨frontedResolution⟩⟩ :=
          resolvePackage_isOk_iff.mp (fronted frontedFiles isFronted)
        obtain ⟨_, _, answeredFronted, _⟩ :=
          isFronted.rearranged.survey package distinct frontedResolution
        rw [first, List.append_cons] at answeredFronted
        obtain ⟨values, _, after, ran, _, _⟩ := Resolve.askAll_append_ok.mp answeredFronted
        exact ⟨values, after, ran⟩)
  have alike := Scope.alike_of_perm
    (rearrangedResolving.perm_questions.symm.trans rearranged.perm_questions) answered answered'
  refine resolvePackage_isOk_iff.mpr
    ⟨(rearranged.nodup_names_iff package).mp distinct, ?_⟩
  rw [← Scope.questions_opened package] at answered'
  exact Scope.exists_resolution (rearranged.moves package distinct) answered'
    (alike.distinct distinctMethods)

end Implementers
