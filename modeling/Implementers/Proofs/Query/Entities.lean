import Implementers.Proofs.Scope.Origin
import Implementers.Query.ImportIndex
import Mathlib.Data.List.Pairwise

namespace Implementers

/-!
# Symbols of one entity

The key of a symbol is a text, and symbols of one key come from different places: from the
declaration of a type and from every receiver that is named.  In a package that resolves, the name
of a symbol and its view decide all the rest of it but the place where it was found.  Units with
different paths have no package in common, so the same holds for all symbols of such units, before
and after the owners of scanned packages are replaced.
-/

/-- What a declared type comes to as a symbol, by what is found underneath it at the end. -/
def Scope.Resolution.entity
    {scope : Scope}
    (resolution : Scope.Resolution scope)
    (decl : TypeDecl)
    (pointer : Bool) :
    Symbol :=
  match resolution.final.underlying decl.name with
  | .interface interface =>
      { name := decl.name
        package := scope.package
        kind := .interface
        pointer
        position := decl.position
        declaration := decl.position
        methods := interface.methods
        isPartial := interface.isPartial }
  | _ =>
      { name := decl.name
        package := scope.package
        kind := .concrete
        pointer
        position := decl.position
        declaration := decl.position
        methods :=
          (scope.embedding resolution.table resolution.final.underlying).methodSet
            scope.promotionLevels ⟨.declared decl.name, pointer⟩
        isPartial := false }

namespace Symbol

/-- Whether two symbols differ in nothing but the places where they were found. -/
def Agrees
    (left right : Symbol) :
    Prop :=
  { left with position := right.position } = right

theorem Agrees.symm
    {left right : Symbol}
    (agrees : left.Agrees right) :
    right.Agrees left := by
  rw [Agrees] at agrees ⊢
  rw [← agrees]

theorem Agrees.trans
    {first second third : Symbol}
    (agrees : first.Agrees second)
    (agreesNext : second.Agrees third) :
    first.Agrees third := by
  rw [Agrees] at agrees agreesNext ⊢
  rw [← agreesNext, ← agrees]

theorem Agrees.kind
    {left right : Symbol}
    (agrees : left.Agrees right) :
    left.kind = right.kind := by
  rw [Agrees] at agrees
  rw [← agrees]

theorem Agrees.isPartial
    {left right : Symbol}
    (agrees : left.Agrees right) :
    left.isPartial = right.isPartial := by
  rw [Agrees] at agrees
  rw [← agrees]

theorem Agrees.methods
    {left right : Symbol}
    (agrees : left.Agrees right) :
    left.methods = right.methods := by
  rw [Agrees] at agrees
  rw [← agrees]

/-- Replacing owners depends on nothing that symbols may differ in. -/
theorem Agrees.localize
    {left right : Symbol}
    (agrees : left.Agrees right)
    (scanned : ScannedPackages) :
    (left.localize scanned).Agrees (right.localize scanned) := by
  rw [Agrees] at agrees ⊢
  rw [← agrees]
  rfl

end Symbol

namespace Scope.Resolution

variable
  {scope : Scope}
  (resolution : Resolution scope)

/-- What is underneath a concrete type at the end makes it a concrete entity. -/
theorem entity_concrete
    {decl : TypeDecl}
    {underlying : Underlying}
    (pointer : Bool)
    (found : resolution.final.underlying decl.name = underlying)
    (notInterface : underlying.isInterface = false) :
    resolution.entity decl pointer =
      { name := decl.name
        package := scope.package
        kind := .concrete
        pointer
        position := decl.position
        declaration := decl.position
        methods :=
          (scope.embedding resolution.table resolution.final.underlying).methodSet
            scope.promotionLevels ⟨.declared decl.name, pointer⟩
        isPartial := false } := by
  simp only [entity]
  generalize resolution.final.underlying decl.name = atEnd at found ⊢
  subst found
  cases atEnd with
  | interface _ => cases notInterface
  | _ => rfl

/-- The symbol of a declared type is the entity that its declaration comes to. -/
theorem agrees_of_type
    (distinct : (scope.decls.map TypeDecl.name).Nodup)
    {placed : PlacedSymbol}
    (member : some placed ∈ resolution.types) :
    ∃ decl ∈ scope.decls, placed.symbol.name = decl.name ∧
      (resolution.entity decl placed.symbol.pointer).Agrees placed.symbol := by
  obtain ⟨decl, declMember, asked⟩ := exists_related_left resolution.asked_types member
  obtain ⟨before, after, answered, beforeCoherent, _, _, steadyAfter⟩ := asked.between
  have covers := (steadyAfter.trans resolution.steady_final.1).covers
  have declared := lookup?_of_mem distinct declMember
  have answer := declSymbol?_ok declared beforeCoherent answered
  generalize same : some placed = symbol at answer
  cases answer with
  | passedOver _ => cases same
  | interface _ found =>
      split at same
      · cases same
      · cases same
        refine ⟨decl, declMember, rfl, ?_⟩
        simp only [entity, covers.finds _ _ found]
        rfl
  | @concrete underlying middle _ methods kept middleCoherent found notInterface ran =>
      cases same
      have eager :=
        (hastening scope).concreteMethods (.stay scope) (hastening_declMeaning scope)
          resolution.table resolution.table decl.name false false
      obtain ⟨steadyRun, _⟩ := eager.steady middleCoherent ran
      have underneath := (covers.trans steadyRun.covers).finds _ _ found
      have sameMethods :=
        concreteMethods_eq (promotable_of_lookup declared kept) middleCoherent ran covers.finds
      refine ⟨decl, declMember, rfl, ?_⟩
      rw [resolution.entity_concrete _ underneath notInterface, sameMethods]
      rfl

/-- The symbol of a named receiver is the entity that the declaration of its type comes to. -/
theorem agrees_of_site
    (distinct : (scope.decls.map TypeDecl.name).Nodup)
    {placed : PlacedSymbol}
    (member : some placed ∈ resolution.sites) :
    ∃ decl ∈ scope.decls, placed.symbol.name = decl.name ∧
      (resolution.entity decl placed.symbol.pointer).Agrees placed.symbol := by
  obtain ⟨site, siteMember, asked⟩ := exists_related_left resolution.asked_sites member
  obtain ⟨before, after, answered, beforeCoherent, _, _, steadyAfter⟩ := asked.between
  have receivable := resolution.receives site siteMember
  obtain ⟨decl, declared, _⟩ := receivable.declared
  obtain ⟨underlying, found, notInterface⟩ := receivable.found
  have covers := (resolution.steady_known.1.trans resolution.steady_final.1).covers
  simp only [siteSymbol?, declared] at answered
  obtain ⟨methods, last, ran, returned⟩ := Resolve.andThen_ok answered
  obtain rfl : last = after := congrArg Prod.snd returned
  have sameMethods :=
    concreteMethods_eq receivable.promotable beforeCoherent ran steadyAfter.covers.finds
  obtain ⟨declMember, named⟩ := (findDecl?_eq_some_iff distinct).mp declared
  have underneath := covers.finds _ _ found
  rw [← named] at underneath sameMethods
  cases returned
  refine ⟨decl, declMember, named.symm, ?_⟩
  rw [resolution.entity_concrete _ underneath notInterface]
  simp only [Symbol.Agrees, ← named, sameMethods]

/-- Every symbol of a package is the entity that some declaration comes to. -/
theorem agrees_of_mem
    (distinct : (scope.decls.map TypeDecl.name).Nodup)
    {symbol : Symbol}
    (member : symbol ∈ resolution.symbols) :
    ∃ decl ∈ scope.decls, symbol.name = decl.name ∧
      (resolution.entity decl symbol.pointer).Agrees symbol := by
  obtain ⟨placed, ofType | ofSite, rfl⟩ := resolution.mem_symbols.mp member
  · exact resolution.agrees_of_type distinct ofType
  · exact resolution.agrees_of_site distinct ofSite

/-- Symbols of a package with one name come to entities of one declaration. -/
theorem entities_of_name
    (distinct : (scope.decls.map TypeDecl.name).Nodup)
    {left right : Symbol}
    (leftMember : left ∈ resolution.symbols)
    (rightMember : right ∈ resolution.symbols)
    (name : left.name = right.name) :
    ∃ decl,
      (resolution.entity decl left.pointer).Agrees left ∧
        (resolution.entity decl right.pointer).Agrees right := by
  obtain ⟨decl, declMember, named, agrees⟩ := resolution.agrees_of_mem distinct leftMember
  obtain ⟨other, otherMember, otherNamed, otherAgrees⟩ :=
    resolution.agrees_of_mem distinct rightMember
  obtain rfl : decl = other :=
    List.inj_on_of_nodup_map distinct declMember otherMember
      (named.symm.trans (name.trans otherNamed))
  exact ⟨decl, agrees, otherAgrees⟩

/-- Symbols of a package with one name and one view differ in their places only. -/
theorem agrees_of_name
    (distinct : (scope.decls.map TypeDecl.name).Nodup)
    {left right : Symbol}
    (leftMember : left ∈ resolution.symbols)
    (rightMember : right ∈ resolution.symbols)
    (name : left.name = right.name)
    (pointer : left.pointer = right.pointer) :
    left.Agrees right := by
  obtain ⟨decl, agrees, otherAgrees⟩ :=
    resolution.entities_of_name distinct leftMember rightMember name
  rw [pointer] at agrees
  exact agrees.symm.trans otherAgrees

end Scope.Resolution

/-- Symbols of a package with one name and one view differ in their places only. -/
theorem resolvePackage_agrees
    {package : PackageId}
    {files : List FileScope}
    {symbols : List Symbol}
    {warnings : List Warning}
    (resolved : resolvePackage package files = .ok (symbols, warnings))
    {left right : Symbol}
    (leftMember : left ∈ symbols)
    (rightMember : right ∈ symbols)
    (name : left.name = right.name)
    (pointer : left.pointer = right.pointer) :
    left.Agrees right := by
  obtain ⟨scope, resolution, opened, rfl, _⟩ := resolvePackage_ok resolved
  exact resolution.agrees_of_name (Scope.nodup_names_of_ofFiles opened) leftMember rightMember
    name pointer

/-! ## Keys -/

/-- A mark in front of a text that ends in a point can be told from the text. -/
theorem star_append_ne
    (front : List Char)
    (back back' : List Char) :
    '*' :: (front ++ '.' :: back) ≠ front ++ '.' :: back' := by
  induction front with
  | nil => simp
  | cons first rest inductionHypothesis =>
      intro same
      obtain ⟨rfl, same⟩ := List.cons.inj same
      exact inductionHypothesis same

/-- Symbols of one package with one text of their type have one name and one view. -/
theorem Symbol.eq_of_typeString_eq
    {left right : Symbol}
    (package : left.package = right.package)
    (type : left.typeString = right.typeString) :
    left.name = right.name ∧ left.pointer = right.pointer := by
  have texts := congrArg String.toList type
  have differ := star_append_ne right.package.name.toList
  simp only [typeString, qualifiedName, mark, String.toList_append, package] at texts
  cases ofLeft : left.pointer <;> cases ofRight : right.pointer <;>
    simp [ofLeft, ofRight, String.toList_inj] at texts
  · exact ⟨texts, rfl⟩
  · exact absurd texts.symm (differ _ _)
  · exact absurd texts (differ _ _)
  · exact ⟨texts, rfl⟩

/-- A symbol of a unit's packages is one of the package that it belongs to. -/
theorem mem_resolvePackage
    {unit : Path}
    {parsed : List PackageFile}
    (names : List String) :
    ∀ {symbols : List Symbol} {warnings : List Warning},
      resolvePackages unit parsed names = .ok (symbols, warnings) →
      ∀ symbol ∈ symbols,
        ∃ own ownWarnings,
          resolvePackage symbol.package (PackageFile.scopesOf parsed symbol.package.name) =
            .ok (own, ownWarnings) ∧ symbol ∈ own ∧ symbol.package.unit = unit := by
  induction names with
  | nil =>
      intro symbols warnings resolved symbol member
      cases resolved
      cases member
  | cons name rest inductionHypothesis =>
      intro symbols warnings resolved symbol member
      obtain ⟨⟨own, ownWarnings⟩, first, next⟩ := ok_of_bind resolved
      obtain ⟨others, later, returned⟩ := ok_of_bind next
      cases returned
      rcases List.mem_append.mp member with ofFirst | ofLater
      · have package := (resolvePackage_declared first ofFirst).1
        refine ⟨own, ownWarnings, ?_, ofFirst, by rw [package]⟩
        rw [package]
        exact first
      · exact inductionHypothesis later symbol ofLater

/-- Whether two symbols come from one resolution of their package. -/
def Symbol.Together
    (left right : Symbol) :
    Prop :=
  ∃ files own warnings,
    resolvePackage left.package files = .ok (own, warnings) ∧ left ∈ own ∧ right ∈ own

/-- Symbols of one key that come from one resolution differ in their places only. -/
theorem Symbol.Together.agrees
    {left right : Symbol}
    (together : left.Together right)
    (same : left.identity.same right.identity) :
    left.Agrees right := by
  obtain ⟨files, own, warnings, resolved, leftMember, rightMember⟩ := together
  obtain ⟨name, pointer⟩ :=
    Symbol.eq_of_typeString_eq (resolvePackage_declared resolved rightMember).1.symm
      (IdentityKey.same_iff.mp same).2
  exact resolvePackage_agrees resolved leftMember rightMember name pointer

/-- Symbols of a unit that have the same package come from one resolution. -/
theorem resolveUnit_together
    {files : FileSystem}
    {unit : SourceUnit}
    {table : SymbolTable}
    {warnings : List Warning}
    (resolved : resolveUnit files unit = .ok (table, warnings))
    {left right : Symbol}
    (leftMember : left ∈ table.symbols)
    (rightMember : right ∈ table.symbols)
    (same : left.package.same right.package) :
    left.Together right := by
  obtain ⟨texts, _, next⟩ := ok_of_bind resolved
  obtain ⟨parsed, _, nextSymbols⟩ := ok_of_bind next
  obtain ⟨found, resolvedAll, returned⟩ := ok_of_bind nextSymbols
  cases returned
  obtain ⟨own, ownWarnings, ofLeft, leftOwn, leftUnit⟩ :=
    mem_resolvePackage _ resolvedAll left leftMember
  obtain ⟨other, _, ofRight, rightOwn, rightUnit⟩ :=
    mem_resolvePackage _ resolvedAll right rightMember
  have package : left.package = right.package := by
    have name : left.package.name = right.package.name := (PackageId.same_iff.mp same).2
    cases ofLeftPackage : left.package
    cases ofRightPackage : right.package
    simp_all
  refine ⟨_, own, ownWarnings, ofLeft, leftOwn, ?_⟩
  rw [package, ofRight] at ofLeft
  cases ofLeft
  exact rightOwn

/-- The symbols that units come to, one table for each unit. -/
def ResolvedUnits
    (files : FileSystem)
    (units : List SourceUnit)
    (tables : List SymbolTable) :
    Prop :=
  List.Forall₂
    (fun unit table => ∃ warnings, resolveUnit files unit = .ok (table, warnings)) units tables

/-- Units that do not fail come to the tables that their resolutions answer. -/
theorem resolvedUnits_of_isOk
    {files : FileSystem}
    {units : List SourceUnit}
    {table : SourceUnit → SymbolTable}
    (isTable : ∀ unit,
      table unit = (((resolveUnit files unit).toOption).map Prod.fst).getD ⟨none, []⟩)
    (resolves : ∀ unit ∈ units, (resolveUnit files unit).isOk = true) :
    ResolvedUnits files units (units.map table) := by
  refine List.forall₂_map_right_iff.mpr (List.forall₂_same.mpr fun unit member => ?_)
  obtain ⟨⟨symbols, warnings⟩, found⟩ := exists_ok_of_isOk (resolves unit member)
  exact ⟨warnings, by simp [isTable, found, Except.toOption]⟩

/-- Symbols of units with different paths that have the same package come from one resolution. -/
theorem together_of_package
    {files : FileSystem}
    {units : List SourceUnit}
    {tables : List SymbolTable}
    (distinct : units.Pairwise fun left right => ¬left.path.same right.path)
    (resolved : ResolvedUnits files units tables)
    {left right : Symbol}
    (leftMember : left ∈ tables.flatMap SymbolTable.symbols)
    (rightMember : right ∈ tables.flatMap SymbolTable.symbols)
    (same : left.package.same right.package) :
    left.Together right := by
  obtain ⟨table, tableMember, inTable⟩ := List.mem_flatMap.mp leftMember
  obtain ⟨otherTable, otherTableMember, inOtherTable⟩ := List.mem_flatMap.mp rightMember
  obtain ⟨unit, unitMember, _, unitResolved⟩ := exists_related_left resolved tableMember
  obtain ⟨other, otherMember, _, otherResolved⟩ := exists_related_left resolved otherTableMember
  have leftUnit := (resolveUnit_comesFrom unitResolved inTable).sameUnit
  have rightUnit := (resolveUnit_comesFrom otherResolved inOtherTable).sameUnit
  have samePath : unit.path.same other.path := by
    rw [← leftUnit, ← rightUnit, Path.same_iff]
    exact (PackageId.same_iff.mp same).1
  obtain rfl : unit = other := by
    by_contra different
    have symmetric : Std.Symm fun left right : SourceUnit => ¬left.path.same right.path :=
      ⟨fun _ _ differ same => differ (by rw [Path.same_iff] at same ⊢; exact same.symm)⟩
    exact distinct.forall unitMember otherMember different samePath
  rw [unitResolved] at otherResolved
  cases otherResolved
  exact resolveUnit_together unitResolved inTable inOtherTable same

/-- Symbols of units with different paths that have one key differ in their places only. -/
theorem agrees_of_identity
    {files : FileSystem}
    {units : List SourceUnit}
    {tables : List SymbolTable}
    (distinct : units.Pairwise fun left right => ¬left.path.same right.path)
    (resolved : ResolvedUnits files units tables)
    {left right : Symbol}
    (leftMember : left ∈ tables.flatMap SymbolTable.symbols)
    (rightMember : right ∈ tables.flatMap SymbolTable.symbols)
    (same : left.identity.same right.identity) :
    left.Agrees right :=
  (together_of_package distinct resolved leftMember rightMember
    (IdentityKey.same_iff.mp same).1).agrees same

/--
Of the symbols of units with different paths, those with one key agree in everything but the place
where they were found, and they still do so when the owners of scanned packages are replaced.
-/
theorem ImportIndex.identity_determines
    {files : FileSystem}
    {units : List SourceUnit}
    {tables : List SymbolTable}
    (distinct : units.Pairwise fun left right => ¬left.path.same right.path)
    (resolved : ResolvedUnits files units tables)
    {symbols : Universe}
    (gathered : symbols ⊆ tables.flatMap SymbolTable.symbols) :
    (∀ left ∈ symbols, ∀ right ∈ symbols, left.identity.same right.identity →
        { left with position := right.position } = right) ∧
      ∀ left ∈ (ImportIndex.ofUnits units).localize symbols,
        ∀ right ∈ (ImportIndex.ofUnits units).localize symbols,
          left.identity.same right.identity → { left with position := right.position } = right := by
  constructor
  · intro left leftMember right rightMember same
    exact agrees_of_identity distinct resolved (gathered leftMember) (gathered rightMember) same
  · intro left leftMember right rightMember same
    obtain ⟨before, beforeMember, rfl⟩ := List.mem_map.mp leftMember
    obtain ⟨other, otherMember, rfl⟩ := List.mem_map.mp rightMember
    -- Replacing owners leaves the key of a symbol as it is.
    have sameBefore : before.identity.same other.identity := same
    have agrees :=
      agrees_of_identity distinct resolved (gathered beforeMember) (gathered otherMember) sameBefore
    exact agrees.localize _

/-! ## A receiver beside its declaration -/

namespace NamedReceiver

/-- A directory with a type that a receiver names again, and a file that is a unit of its own. -/
def files : FileSystem :=
  { root :=
      .directory
        [ ("w",
            .directory
              [ ("a",
                  .directory
                    [ ("a.go",
                        .file (.text "package a\n\ntype T struct{}\n\nfunc (t T) M() {}\n"))]),
                ("b.go",
                  .file (.text "package a\n\ntype T interface{ M() }\n"))])]
    workingDirectory := ["w"] }

/-- The units of the directory and of the file. -/
def units : List SourceUnit :=
  [.directory ⟨"a"⟩ [⟨"a/a.go"⟩], .single ⟨"b.go"⟩]

/-- The symbols of a unit. -/
def table
    (unit : SourceUnit) :
    SymbolTable :=
  (((resolveUnit files unit).toOption).map Prod.fst).getD ⟨none, []⟩

/-- The unit of the directory and the one of the file resolve, and their keys tell all. -/
theorem identity_determines_receiver :
    ResolvedUnits files units (units.map table) ∧
      ∀ left ∈ (ImportIndex.ofUnits units).localize
          ((units.map table).flatMap SymbolTable.symbols),
        ∀ right ∈ (ImportIndex.ofUnits units).localize
            ((units.map table).flatMap SymbolTable.symbols),
          left.identity.same right.identity →
            { left with position := right.position } = right := by
  have distinct : units.Pairwise fun left right => ¬left.path.same right.path := by
    decide +kernel
  have resolves : ∀ unit ∈ units, (resolveUnit files unit).isOk = true := by decide +kernel
  have resolved : ResolvedUnits files units (units.map table) :=
    resolvedUnits_of_isOk (fun _ => rfl) resolves
  exact ⟨resolved, (ImportIndex.identity_determines distinct resolved (List.Subset.refl _)).2⟩

end NamedReceiver

end Implementers
