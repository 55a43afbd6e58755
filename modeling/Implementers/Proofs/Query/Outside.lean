import Implementers.Proofs.Promotion.Package
import Implementers.Proofs.Query.Owners
import Implementers.Proofs.Scope.Qualification

namespace Implementers

/-!
# Types inside and outside their package

A package that can be imported may be mentioned from another one.  What a type expression denotes
inside the package is what its qualified form denotes outside, once the import path has become the
package again.  Aliases are the exception: only their own package looks through them.
-/

section Honesty

variable
  {home : Scope}
  {scanned : ScannedPackages}
  {file : FileScope}
  {name : String}
  {type : Ty}

namespace FileScope

/-- Whether a file imports a path, under a name or without one. -/
def Imports
    (file : FileScope)
    (path : String) :
    Prop :=
  path ∈ file.dotImports ∨ ∃ name, file.importPath? name = some path

end FileScope

namespace Scope

/-- Whether no file that declares a type of a package imports that package. -/
def Aloof
    (scope : Scope)
    (scanned : ScannedPackages) :
    Prop :=
  ∀ decl ∈ scope.decls, ∀ path, decl.file.Imports path →
    ∀ package, scanned path = some package → ¬package.same scope.package

/-- Whether a package declares a type of a name that is no alias. -/
def Defines
    (scope : Scope)
    (name : String) :
    Prop :=
  ∃ decl, scope.lookup? name = some decl ∧ decl.spec.isAlias = false

/-- An imported type is owned by none of the packages that its file does not import. -/
theorem not_namedIn_imported
    (away : ∀ path, file.Imports path →
      ∀ package, scanned path = some package → ¬package.same home.package)
    {path : String}
    {own : String}
    {args : List Ty}
    (imports : file.Imports path) :
    ¬(Ty.named (.imported path) own args).NamedIn scanned home.package name := by
  rintro ⟨owner, _, same, owned⟩
  cases same
  simp only [Owner.localize] at owned
  cases stands : scanned path with
  | none => simp [stands, Owner.same] at owned
  | some package =>
      rw [stands] at owned
      exact away path imports package stands owned

/-- A name without arguments that no package declares is owned by no package. -/
theorem not_namedIn_undeclared
    (away : ∀ path, file.Imports path →
      ∀ package, scanned path = some package → ¬package.same home.package)
    {ident : Syntax.Ident}
    {args : List Ty}
    (denotes : (undeclaredType file ident args).MayAnswer type) :
    ¬type.NamedIn scanned home.package name := by
  have notPredeclared (known : String) :
      ¬(Ty.predeclared known).NamedIn scanned home.package name := by
    rintro ⟨owner, _, same, owned⟩
    cases same
    cases owned
  unfold undeclaredType at denotes
  split at denotes
  · exact Resolve.mayAnswer_answer.mp denotes ▸ notPredeclared _
  · exact Resolve.mayAnswer_answer.mp denotes ▸ notPredeclared _
  · rw [← Resolve.mayAnswer_answer.mp denotes]
    rintro ⟨_, _, same, _⟩
    cases same
  · split at denotes
    · exact Resolve.mayAnswer_answer.mp denotes ▸ notPredeclared _
    · split at denotes
      · next path first =>
          rw [← Resolve.mayAnswer_answer.mp denotes]
          exact not_namedIn_imported away (.inl (List.mem_of_mem_head? first))
      · exact absurd denotes Resolve.not_mayAnswer_fail

/-- A type expression denotes a type of its own package only by a name that is no alias. -/
theorem defines_of_lowerTypeWith
    {inner : Meaning}
    (aliases : ∀ decl ∈ home.decls, ∀ type, (inner.typeOfAlias decl).MayAnswer type →
      type.NamedIn scanned home.package name → home.Defines name)
    (away : ∀ path, file.Imports path →
      ∀ package, scanned path = some package → ¬package.same home.package) :
    ∀ expr : Syntax.TypeExpr, (home.lowerTypeWith inner file expr).MayAnswer type →
      type.NamedIn scanned home.package name → home.Defines name
  | .missing _, lowered, _ => absurd lowered Resolve.not_mayAnswer_fail
  | .name _ _ none _ _, lowered, _ => absurd lowered Resolve.not_mayAnswer_fail
  | .name _ qualifier (some ident) _ args, lowered, named => by
      obtain ⟨types, -, denotes⟩ := lowered.andThen
      unfold namedType at denotes
      split at denotes
      · split at denotes
        · next path bound =>
            rw [← Resolve.mayAnswer_answer.mp denotes] at named
            exact absurd named (not_namedIn_imported away (.inr ⟨_, bound⟩))
        · exact absurd denotes Resolve.not_mayAnswer_fail
      · split at denotes
        · next decl found =>
            split at denotes
            · exact aliases decl (List.mem_of_find?_eq_some found) type denotes named
            · next notAlias =>
                rw [← Resolve.mayAnswer_answer.mp denotes] at named
                obtain ⟨_, _, same, _⟩ := named
                cases same
                exact ⟨decl, found, by simpa using notAlias⟩
        · exact absurd named (not_namedIn_undeclared away denotes)
  | .paren _ inside, lowered, named => defines_of_lowerTypeWith aliases away inside lowered named
  | .pointer _ _, lowered, named
  | .slice _ _, lowered, named
  | .array _ _ _, lowered, named
  | .chan _ _ _, lowered, named
  | .struct _ _, lowered, named
  | .interface _ _, lowered, named => by
      obtain ⟨_, -, answered⟩ := lowered.andThen
      obtain ⟨_, _, same, _⟩ := named
      cases Resolve.mayAnswer_answer.mp answered ▸ same
  | .map _ _ _, lowered, named
  | .func _ _ _, lowered, named => by
      obtain ⟨_, -, next⟩ := lowered.andThen
      obtain ⟨_, -, answered⟩ := next.andThen
      obtain ⟨_, _, same, _⟩ := named
      cases Resolve.mayAnswer_answer.mp answered ▸ same

/-- An alias stands for a type of its own package only if that type is no alias. -/
theorem defines_of_typeOfAlias
    (aloof : home.Aloof scanned) :
    ∀ depth, ∀ decl ∈ home.decls, ∀ type,
      ((home.meaning depth).typeOfAlias decl).MayAnswer type →
        type.NamedIn scanned home.package name → home.Defines name := by
  intro depth
  induction depth with
  | zero => exact fun decl _ type answers => absurd answers Resolve.not_mayAnswer_fail
  | succ depth inductionHypothesis =>
      intro decl member type answers
      exact defines_of_lowerTypeWith inductionHypothesis (aloof decl member) decl.spec.type
        answers.expanding

end Scope

end Honesty

namespace ImportIndex

/-- Whether a universe has symbols of a package and of no other one for an import path. -/
structure Offers
    (index : ImportIndex)
    (symbols : Universe)
    (package : PackageId)
    (path : String) :
    Prop where
  ordinary : package.isExternalTest = false
  importable : index.importPath? package.unit = some path
  emitted : ∃ symbol ∈ symbols, symbol.package.same package
  only : ∀ symbol ∈ symbols, index.provides path symbol → symbol.package.same package

/-- The import path of a unit depends only on the components of the unit's path. -/
theorem importPath?_congr
    (index : ImportIndex)
    {left right : Path}
    (same : left.same right) :
    index.importPath? left = index.importPath? right := by
  rw [Path.same_iff] at same
  simp only [importPath?, Path.same, same]

section Offers

variable
  {index : ImportIndex}
  {symbols : Universe}
  {package : PackageId}
  {path : String}

/-- The import path of a package that is offered for it becomes that package. -/
theorem Offers.stands
    (offers : index.Offers symbols package path) :
    ∃ found, scannedIn (index.packages symbols) path = some found ∧ found.same package := by
  obtain ⟨symbol, member, same⟩ := offers.emitted
  have provides : index.provides path symbol := by
    have external : symbol.package.isExternalTest = package.isExternalTest := by
      simp only [PackageId.isExternalTest, (PackageId.same_iff.mp same).2]
    have unit : symbol.package.unit.same package.unit :=
      Path.same_iff.mpr (PackageId.same_iff.mp same).1
    simp [ImportIndex.provides, external, offers.ordinary, index.importPath?_congr unit,
      offers.importable]
  cases first : symbols.find? (index.provides path) with
  | none => exact absurd provides (List.find?_eq_none.mp first symbol member)
  | some found =>
      refine ⟨found.package, by rw [scannedIn_packages, first, Option.map_some], ?_⟩
      exact offers.only found (List.mem_of_find?_eq_some first) (List.find?_some first)

/-- No other import path becomes the package. -/
theorem Offers.path_eq
    (offers : index.Offers symbols package path)
    {other : String}
    {found : PackageId}
    (stands : scannedIn (index.packages symbols) other = some found)
    (same : found.same package) :
    other = path := by
  rw [scannedIn_packages] at stands
  obtain ⟨symbol, first, rfl⟩ := Option.map_eq_some_iff.mp stands
  have provides := List.find?_some first
  simp only [ImportIndex.provides, Bool.and_eq_true, beq_iff_eq] at provides
  have unit : symbol.package.unit.same package.unit :=
    Path.same_iff.mpr (PackageId.same_iff.mp same).1
  rw [index.importPath?_congr unit, offers.importable] at provides
  exact (Option.some.inj provides.2).symm

end Offers

end ImportIndex

/-- A package abroad sees what a package at home offers. -/
theorem ImportIndex.Offers.crossing
    {index : ImportIndex}
    {symbols : Universe}
    {home : Scope}
    {path : String}
    {outside : FileScope}
    {qualifier : Syntax.Ident}
    (offers : index.Offers symbols home.package path)
    (bound : outside.importPath? qualifier.text = some path) :
    Crossing home home.declMeaning outside (ImportIndex.scannedIn (index.packages symbols))
      qualifier (∀ decl ∈ home.decls, ¬decl.file.Imports path) := by
  constructor
  · obtain ⟨found, stands, same⟩ := offers.stands
    exact ⟨path, found, bound, stands, same⟩
  · intro notImported name decl type found isAlias answers named
    have aloof : home.Aloof (ImportIndex.scannedIn (index.packages symbols)) := by
      intro decl member other imports package stands same
      exact notImported decl member (offers.path_eq stands same ▸ imports)
    obtain ⟨other, foundOther, notAlias⟩ :=
      Scope.defines_of_typeOfAlias aloof _ decl (List.mem_of_find?_eq_some found) type answers named
    rw [found] at foundOther
    cases foundOther
    rw [isAlias] at notAlias
    cases notAlias

/--
A type expression of a package and its qualified form in a file that imports the package denote
the same type once imported owners are replaced, if no alias occurs in it.  Unless a file of the
package imports the package itself, this is the only way for them to be the same.
-/
theorem Scope.lowerType_qualified
    {units : List SourceUnit}
    {symbols : Universe}
    {home abroad : Scope}
    {path : String}
    {inside outside : FileScope}
    {qualifier : Syntax.Ident}
    {expr written : Syntax.TypeExpr}
    {left right : Ty}
    (offers : (ImportIndex.ofUnits units).Offers symbols home.package path)
    (bound : outside.importPath? qualifier.text = some path)
    (portable : expr.Portable home abroad)
    (alike : written.Alike (expr.qualified home.declaresType qualifier))
    (lowered : (home.lowerType inside expr).MayAnswer left)
    (loweredOutside : (abroad.lowerType outside written).MayAnswer right) :
    let scanned := ImportIndex.scannedIn ((ImportIndex.ofUnits units).packages symbols)
    (home.NoAlias expr.typeNames → (left.localize scanned).same (right.localize scanned)) ∧
      ((∀ decl ∈ home.decls, ¬decl.file.Imports path) →
        (left.localize scanned).same (right.localize scanned) → home.NoAlias expr.typeNames) := by
  have settled :=
    (offers.crossing bound).lowerTypeWith expr portable alike lowered loweredOutside
  exact ⟨settled.sound, settled.complete⟩

/-! ## A package with an alias -/

namespace Crossed

/-- The package `b` in the directory of its name. -/
def package : PackageId :=
  ⟨⟨"b"⟩, "b"⟩

/-- The file that declares `type A = int` and `type T struct{}`. -/
def inside : FileScope :=
  Sketch.file
    [ Sketch.declares 16 "A" true (Sketch.named 20 "int"),
      Sketch.declares 30 "T" false (.struct ⟨32, 40⟩ [])]
    []

/-- A file that imports `b` and declares no types. -/
def outside : FileScope :=
  { Sketch.file [] [] with imports := [("b", "m/b")] }

/-- The package `b`. -/
def home : Scope :=
  ⟨package, [inside], Scope.declsOf inside⟩

/-- The package `c`. -/
def abroad : Scope :=
  ⟨⟨⟨"c"⟩, "c"⟩, [outside], []⟩

/-- The directories of both packages. -/
def units : List SourceUnit :=
  [ { SourceUnit.directory ⟨"b"⟩ [] with importPath := some "m/b" },
    { SourceUnit.directory ⟨"c"⟩ [] with importPath := some "m/c" }]

/-- The symbols that resolving both packages gives. -/
def symbols : Universe :=
  [resolvePackage package [inside], resolvePackage abroad.package [outside]].flatMap fun resolved =>
    (resolved.toOption.map Prod.fst).getD []

/-- A name at an offset behind the qualifier `b`. -/
def qualified
    (offset : Nat)
    (name : String) :
    Syntax.TypeExpr :=
  .name ⟨offset, offset⟩ (some (Sketch.ident offset "b")) (some (Sketch.ident (offset + 2) name))
    false []

/-- The type `func(t T) map[string][]*T` for some other type instead of `T`. -/
def listing
    (type : Syntax.TypeExpr) :
    Syntax.TypeExpr :=
  .func ⟨0, 0⟩ (.list ⟨0, 0⟩ [.mk ⟨0, 0⟩ (some (Sketch.ident 50 "t")) false type])
    (.single (.map ⟨0, 0⟩ (Sketch.named 60 "string") (.slice ⟨0, 0⟩ (.pointer ⟨0, 0⟩ type))))

/-- The package `b` is the only one for its import path. -/
theorem offers :
    (ImportIndex.ofUnits units).Offers symbols home.package "m/b" where
  ordinary := by decide +kernel
  importable := by decide +kernel
  emitted := by decide +kernel
  only := by decide +kernel

/-- A question that does not fail may be answered. -/
theorem exists_mayAnswer
    {resolution : Resolve α}
    (isOk : (resolution .initial).1.isOk = true) :
    ∃ value, resolution.MayAnswer value := by
  obtain ⟨value, after, answered⟩ := ok_of_isOk isOk
  exact ⟨value, .initial, after, answered⟩

/-- The type `func(t T) map[string][]*T` of `b` is the type `func(t b.T) map[string][]*b.T`. -/
theorem lowerType_qualified_listing :
    let expr := listing (Sketch.named 70 "T")
    let written := listing (qualified 80 "T")
    let scanned := ImportIndex.scannedIn ((ImportIndex.ofUnits units).packages symbols)
    (ImportIndex.ofUnits units).Offers symbols home.package "m/b" ∧
      outside.importPath? "b" = some "m/b" ∧
      expr.Portable home abroad ∧
      written.Alike (expr.qualified home.declaresType (Sketch.ident 80 "b")) ∧
      home.NoAlias expr.typeNames ∧
      ∃ left right,
        (home.lowerType inside expr).MayAnswer left ∧
          (abroad.lowerType outside written).MayAnswer right ∧
          (left.localize scanned).same (right.localize scanned) := by
  have portable : (listing (Sketch.named 70 "T")).Portable home abroad := by
    refine ⟨⟨.inl ⟨by decide +kernel, trivial⟩, trivial⟩, .inr ⟨?_, rfl⟩, .inl ⟨?_, trivial⟩⟩
    · exact ⟨by decide +kernel, rfl, rfl⟩
    · decide +kernel
  have alike :
      (listing (qualified 80 "T")).Alike
        ((listing (Sketch.named 70 "T")).qualified home.declaresType (Sketch.ident 80 "b")) := by
    rfl
  have noAlias : home.NoAlias (listing (Sketch.named 70 "T")).typeNames := by
    decide +kernel
  obtain ⟨left, lowered⟩ :=
    exists_mayAnswer
      (show (home.lowerType inside (listing (Sketch.named 70 "T")) .initial).1.isOk = true by
        decide +kernel)
  obtain ⟨right, loweredOutside⟩ :=
    exists_mayAnswer
      (show (abroad.lowerType outside (listing (qualified 80 "T")) .initial).1.isOk = true by
        decide +kernel)
  refine ⟨offers, rfl, portable, alike, noAlias, left, right, lowered, loweredOutside, ?_⟩
  exact (Scope.lowerType_qualified offers rfl portable alike lowered loweredOutside).1 noAlias

/-- The alias `A` of `b` is `int` inside the package, while `b.A` is a type that does not exist. -/
theorem lowerType_alias_apart :
    let expr := Sketch.named 70 "A"
    let written := qualified 80 "A"
    let scanned := ImportIndex.scannedIn ((ImportIndex.ofUnits units).packages symbols)
    (ImportIndex.ofUnits units).Offers symbols home.package "m/b" ∧
      outside.importPath? "b" = some "m/b" ∧
      expr.Portable home abroad ∧
      written.Alike (expr.qualified home.declaresType (Sketch.ident 80 "b")) ∧
      ∃ left right,
        (home.lowerType inside expr).MayAnswer left ∧
          (abroad.lowerType outside written).MayAnswer right ∧
          (left.localize scanned).same (right.localize scanned) = false := by
  refine ⟨offers, rfl, .inl ⟨by decide +kernel, trivial⟩, rfl, .predeclared "int",
    .named (.imported "m/b") "A" [], ⟨.initial, .initial, rfl⟩, ⟨.initial, .initial, rfl⟩, ?_⟩
  decide +kernel

end Crossed

end Implementers
