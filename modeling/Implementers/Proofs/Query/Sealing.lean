import Implementers.Proofs.Interfaces.Package
import Implementers.Proofs.Query.Arrival
import Implementers.Proofs.Query.Entities

/-!
# Unexported methods seal an interface

Every method that a package gives to its symbols goes by the name that it has in that package: those
that interfaces write out or embed, those that receivers declare, and those that embedded fields
promote.  So an unexported method carries the package of its symbol, and whatever has the method of
a sealed interface is of the package of the interface.  Replacing the owners of scanned packages
touches no name.
-/

namespace Implementers

open Syntax (FuncDecl)

/-- Whether every method of a set goes by the name that it has in a package. -/
def MethodSet.NamedIn
    (package : PackageId)
    (set : MethodSet) :
    Prop :=
  ∀ method ∈ set.methods, method.name = .inPackage package method.name.name

/-- A name in a package is exported exactly when its text is, and carries the package otherwise. -/
theorem MethodName.package_of_inPackage
    {package : PackageId}
    {method : MethodName}
    (named : method = .inPackage package method.name) :
    method.isExported = Implementers.isExported method.name ∧
      (method.isExported = false → method.package = some package) := by
  rw [named]
  cases exported : Implementers.isExported method.name <;>
    simp [inPackage, MethodName.isExported, exported]

namespace Scope

variable
  {scope : Scope}

/-! ## Declared methods -/

/-- One function declaration more keeps the methods of a table under their names. -/
theorem named_addMethodDecl
    {func : FileScope × FuncDecl}
    {table added : MethodTable}
    {state after : ScopeState}
    (answered : scope.addMethodDecl func.1 table func.2 state = (.ok added, after)) :
    ∀ method ∈ added.methods,
      method ∈ table.methods ∨ method.name = scope.methodName method.name.name := by
  have unchanged {answer : MethodTable} (same : answer.methods = table.methods) :
      ∀ method ∈ answer.methods,
        method ∈ table.methods ∨ method.name = scope.methodName method.name.name :=
    fun _ member => .inl (same ▸ member)
  unfold addMethodDecl at answered
  cases received : func.2.receiver with
  | none =>
      rw [received] at answered
      cases answered
      exact unchanged rfl
  | some receiver =>
      rw [received] at answered
      obtain ⟨base, middle, _, next⟩ := Resolve.andThen_ok answered
      rcases base with _ | ⟨decl, pointer⟩
      · cases next
        exact unchanged rfl
      · cases named : func.2.name with
        | none =>
            rw [named] at next
            cases next
            exact unchanged rfl
        | some name =>
            simp only [named] at next
            split at next
            · cases next
              exact unchanged rfl
            · obtain ⟨signature, last, _, returned⟩ := Resolve.andThen_ok next
              split at returned
              · cases returned
              · cases returned
                intro method member
                refine (List.mem_append.mp member).imp_right fun single => ?_
                rw [List.mem_singleton.mp single]
                rfl

/-- The methods that functions declare go by the names that they have in the package. -/
theorem named_addMethodDecls
    (funcs : List (FileScope × FuncDecl)) :
    ∀ {table added : MethodTable} {state after : ScopeState},
      scope.addMethodDecls table funcs state = (.ok added, after) →
      ∀ method ∈ added.methods,
        method ∈ table.methods ∨ method.name = scope.methodName method.name.name := by
  induction funcs with
  | nil =>
      intro table added state after answered
      cases answered
      exact fun _ member => .inl member
  | cons func rest inductionHypothesis =>
      intro table added state after answered method member
      obtain ⟨next, middle, ran, answeredRest⟩ := Resolve.andThen_ok answered
      rcases inductionHypothesis answeredRest method member with earlier | named
      · exact named_addMethodDecl ran method earlier
      · exact .inr named

/-- The predeclared `error` interface has a method of the package. -/
theorem namedIn_errorMethods :
    scope.errorMethods.NamedIn scope.package := by
  intro method member
  obtain rfl : method = .mk (scope.methodName "Error") (.mk [] [.predeclared "string"] false) := by
    simpa [errorMethods, MethodSet.insert, MethodSet.contains, MethodSet.find?, MethodSet.empty,
      MethodSet.methods] using member
  rfl

/-! ## The methods of symbols -/

namespace Resolution

variable
  (resolution : Resolution scope)

/-- The methods of the table go by the names that they have in the package. -/
theorem named_table :
    ∀ method ∈ resolution.table.methods,
      method.name = .inPackage scope.package method.name.name := by
  intro method member
  rcases named_addMethodDecls scope.funcDecls resolution.ranMethods method member with
    earlier | named
  · simp [MethodTable.empty] at earlier
  · exact named

/-- An interface that was found underneath a name has methods of the package. -/
theorem namedIn_interface
    {name : String}
    {interface : InterfaceMethods}
    (underneath : resolution.final.underlying name = .interface interface) :
    interface.methods.NamedIn scope.package := by
  obtain ⟨known, found, rfl⟩ : ∃ known,
      resolution.final.finished.lookup name = some known ∧ known = .interface interface := by
    rw [ScopeState.underlying] at underneath
    cases found : resolution.final.finished.lookup name with
    | none =>
        rw [found] at underneath
        cases underneath
    | some known =>
        rw [found] at underneath
        exact ⟨known, rfl, underneath⟩
  obtain ⟨decl, _, source, _, fits⟩ := resolution.founded name _ found
  cases fits with
  | interface _ gathers =>
      intro method member
      obtain ⟨text, _, _, _, isNamed, _⟩ := gathers.sound method member
      rw [isNamed]
      rfl

/-- Whatever a type of the package declares as a method goes by its name in the package. -/
theorem named_declaration
    {target : EmbeddedTarget}
    {key : String}
    {name : MethodName}
    {signature : Signature}
    {pointerOnly : Bool}
    (declared : (key, Declaration.method name signature pointerOnly) ∈
      scope.declarationsOf resolution.table resolution.final.underlying target) :
    name = .inPackage scope.package name.name := by
  have ofInterface {methods : MethodSet} (namedIn : methods.NamedIn scope.package)
      (member : (key, Declaration.method name signature pointerOnly) ∈
        interfaceDeclarations methods) :
      name = .inPackage scope.package name.name := by
    obtain ⟨method, inMethods, same⟩ := List.mem_map.mp member
    cases same
    exact namedIn method inMethods
  cases target with
  | errorInterface => exact ofInterface namedIn_errorMethods declared
  | declared base =>
      rcases List.mem_append.mp declared with own | inner
      · obtain ⟨method, inTable, same⟩ := List.mem_map.mp own
        cases same
        exact resolution.named_table method (List.mem_of_mem_filter inTable)
      · cases found : resolution.final.underlying base with
        | interface interface =>
            rw [found] at inner
            exact ofInterface (resolution.namedIn_interface found) inner
        | struct _ fields =>
            rw [found] at inner
            obtain ⟨field, _, fieldMember⟩ := List.mem_flatMap.mp inner
            obtain ⟨_, _, same⟩ := List.mem_map.mp fieldMember
            cases (Prod.mk.inj same).2
        | imported _ | other =>
            rw [found] at inner
            cases inner

/-- Methods that embedded fields promote go by the names that they have in the package. -/
theorem namedIn_selects
    {base : String}
    {pointer : Bool}
    {methods : MethodSet}
    (selects : scope.Selects resolution.table resolution.final base pointer methods) :
    methods.NamedIn scope.package := by
  intro method member
  have found : ∃ depth path pointerOnly,
      (path, .method method.name method.signature pointerOnly) ∈
        (scope.embedding resolution.table resolution.final.underlying).found
          ⟨.declared base, pointer⟩ depth method.name.name := by
    rcases (selects.members method).mp member with promoted | overlooked
    · obtain ⟨depth, path, pointerOnly, _, single, _⟩ := promoted
      exact ⟨depth, path, pointerOnly, single ▸ List.mem_singleton_self _⟩
    · obtain ⟨depth, step, pointerOnly, _, several, _, same, _⟩ := overlooked
      obtain ⟨⟨path, declaration⟩, isFound⟩ :=
        List.exists_mem_of_length_pos (Nat.lt_of_lt_of_le Nat.zero_lt_two several)
      obtain rfl := (same _ isFound).2
      exact ⟨depth, path, pointerOnly, isFound⟩
  obtain ⟨depth, path, pointerOnly, isFound⟩ := found
  obtain ⟨⟨key, declaration⟩, declared, same⟩ :=
    List.mem_map.mp (Embedding.mem_found.mp isFound).2
  cases same
  exact resolution.named_declaration (List.mem_of_mem_filter declared)

/-- The methods of a symbol go by the names that they have in the package. -/
theorem namedIn_symbol
    (distinct : (scope.decls.map TypeDecl.name).Nodup)
    {symbol : Symbol}
    (member : symbol ∈ resolution.symbols) :
    symbol.methods.NamedIn scope.package := by
  cases resolution.makes_of_mem distinct member with
  | interface _ underneath _ => exact resolution.namedIn_interface underneath
  | concrete _ selects => exact resolution.namedIn_selects selects
  | receiver _ selects => exact resolution.namedIn_selects selects

end Resolution

end Scope

/-! ## Sealed interfaces -/

/-- The methods of a unit's symbols go by the names that they have in the symbols' packages. -/
theorem resolveUnit_namedIn
    {files : FileSystem}
    {unit : SourceUnit}
    {table : SymbolTable}
    {warnings : List Warning}
    (resolved : resolveUnit files unit = .ok (table, warnings))
    {symbol : Symbol}
    (member : symbol ∈ table.symbols) :
    symbol.methods.NamedIn symbol.package := by
  obtain ⟨texts, _, next⟩ := ok_of_bind resolved
  obtain ⟨parsed, _, nextSymbols⟩ := ok_of_bind next
  obtain ⟨found, resolvedAll, returned⟩ := ok_of_bind nextSymbols
  cases returned
  obtain ⟨own, _, ofPackage, inPackage, _⟩ := mem_resolvePackage _ resolvedAll symbol member
  have package := (resolvePackage_declared ofPackage inPackage).1
  obtain ⟨scope, resolution, opened, rfl, _⟩ := resolvePackage_ok ofPackage
  have isPackage : scope.package = symbol.package := by
    obtain ⟨rfl, _⟩ := Scope.ofFiles_ok.mp opened
    rfl
  exact isPackage ▸
    resolution.namedIn_symbol (Scope.nodup_names_of_ofFiles opened) inPackage

/-- Replacing owners changes no name of a method. -/
theorem MethodSet.namedIn_localize
    {package : PackageId}
    {set : MethodSet}
    (scanned : ScannedPackages)
    (named : set.NamedIn package) :
    (set.localize scanned).NamedIn package := by
  obtain ⟨methods⟩ := set
  have names : (Method.localizeList scanned methods).map Method.name = methods.map Method.name := by
    induction methods with
    | nil => rfl
    | cons method rest inductionHypothesis =>
        obtain ⟨name, signature⟩ := method
        rw [Method.localizeList, List.map_cons, List.map_cons,
          inductionHypothesis fun other member => named other (List.mem_cons_of_mem _ member)]
        rfl
  intro method member
  have isName : method.name ∈ methods.map Method.name := names ▸ List.mem_map_of_mem member
  obtain ⟨original, inMethods, sameName⟩ := List.mem_map.mp isName
  rw [← sameName]
  exact named original inMethods

/-- What has an unexported method of an interface is of the package of the interface. -/
theorem Symbol.package_of_satisfies
    {interface candidate : Symbol}
    (named : interface.methods.NamedIn interface.package)
    (otherNamed : candidate.methods.NamedIn candidate.package)
    (satisfies : candidate.methods.satisfies interface.methods)
    {method : Method}
    (member : method ∈ interface.methods.methods)
    (unexported : method.name.isExported = false) :
    candidate.package.same interface.package := by
  obtain ⟨found, foundMember, sameName, _⟩ :=
    Method.exists_of_provides (List.all_eq_true.mp satisfies method member)
  have ofInterface :=
    (MethodName.package_of_inPackage (named method member)).2 unexported
  have foundUnexported : found.name.isExported = false := by
    rw [(MethodName.package_of_inPackage (otherNamed found foundMember)).1,
      (MethodName.same_iff.mp sameName).1,
      ← (MethodName.package_of_inPackage (named method member)).1, unexported]
  have ofCandidate :=
    (MethodName.package_of_inPackage (otherNamed found foundMember)).2 foundUnexported
  have samePackage := (MethodName.same_iff.mp sameName).2
  rw [ofInterface, ofCandidate] at samePackage
  simpa [PackageId.same_iff] using samePackage

/--
The symbols of units, before and after the owners of scanned packages are replaced.  Every method of
theirs that is not exported carries the package of its symbol, and whatever implements an interface
with such a method belongs to the package of the interface.
-/
theorem ImportIndex.unexported_sealed
    {files : FileSystem}
    {units : List SourceUnit}
    {tables : List SymbolTable}
    (resolved : ResolvedUnits files units tables)
    {symbols : Universe}
    (gathered : symbols ⊆ tables.flatMap SymbolTable.symbols)
    {stage : Universe}
    (isStage : stage = symbols ∨ stage = (ImportIndex.ofUnits units).localize symbols) :
    (∀ symbol ∈ stage, ∀ method ∈ symbol.methods.methods,
        method.name.isExported = isExported method.name.name ∧
          (method.name.isExported = false → method.name.package = some symbol.package)) ∧
      ∀ concreteOnly target, ∀ found ∈ (Matching.find concreteOnly stage target).1,
        (∃ method ∈ found.interface.methods.methods, method.name.isExported = false) →
          ∀ candidate ∈ found.implementers, candidate.package.same found.interface.package := by
  have ofTables : ∀ symbol ∈ symbols, symbol.methods.NamedIn symbol.package := by
    intro symbol member
    obtain ⟨table, tableMember, inTable⟩ := List.mem_flatMap.mp (gathered member)
    obtain ⟨unit, _, _, unitResolved⟩ := exists_related_left resolved tableMember
    exact resolveUnit_namedIn unitResolved inTable
  have named : ∀ symbol ∈ stage, symbol.methods.NamedIn symbol.package := by
    rcases isStage with rfl | rfl
    · exact ofTables
    · intro symbol member
      obtain ⟨original, inSymbols, rfl⟩ := List.mem_map.mp member
      exact MethodSet.namedIn_localize _ (ofTables original inSymbols)
  refine ⟨fun symbol member method inMethods =>
    MethodName.package_of_inPackage (named symbol member method inMethods), ?_⟩
  rintro concreteOnly target found inFound ⟨method, inMethods, unexported⟩ candidate listed
  have inStage := Matching.interface_of_find inFound
  rw [Matching.find_fst] at inFound
  obtain ⟨interface, _, rfl⟩ := List.mem_map.mp inFound
  obtain ⟨isFirst, implements⟩ := Matching.mem_row.mp listed
  exact Symbol.package_of_satisfies (named interface inStage)
    (named candidate (List.mem_of_find?_eq_some isFirst)) implements.satisfies inMethods unexported

/-! ## Two packages with one method -/

namespace Sealed

/-- A file of a package that declares a type with an unexported method. -/
def runner
    (package : String) :
    Entry :=
  .file (.text ("package " ++ package ++ "\n\ntype T int\n\nfunc (T) run() {}\n"))

/--
A package with an interface that has an unexported method, and two packages with a type that has a
method of the same text, one of them the package of the interface.
-/
def files : FileSystem :=
  { root :=
      .directory
        [ ("w",
            .directory
              [ ("a",
                  .directory
                    [ ("i.go", .file (.text "package a\n\ntype I interface{ run() }\n")),
                      ("t.go", runner "a")]),
                ("b", .directory [("t.go", runner "b")])])]
    workingDirectory := ["w"] }

/-- The units of the packages, where the first package is spread over two units of one path. -/
def units : List SourceUnit :=
  [.directory ⟨"a"⟩ [⟨"a/i.go"⟩], .directory ⟨"a"⟩ [⟨"a/t.go"⟩], .directory ⟨"b"⟩ [⟨"b/t.go"⟩]]

/-- The symbols of a unit. -/
def table
    (unit : SourceUnit) :
    SymbolTable :=
  (((resolveUnit files unit).toOption).map Prod.fst).getD ⟨none, []⟩

/-- The symbols of all units, with the owners of scanned packages replaced. -/
def symbols : Universe :=
  (ImportIndex.ofUnits units).localize ((units.map table).flatMap SymbolTable.symbols)

/-- The type of the first package implements the interface, and the one of the other does not. -/
theorem unexported_sealed_runner :
    ResolvedUnits files units (units.map table) ∧
      ∃ found ∈ (Matching.find false symbols ⟨"a", "I"⟩).1,
        (∃ method ∈ found.interface.methods.methods, method.name.isExported = false) ∧
          found.implementers.map Symbol.typeString = ["a.T"] ∧
          ∀ candidate ∈ found.implementers, candidate.package.same found.interface.package := by
  have resolves : ∀ unit ∈ units, (resolveUnit files unit).isOk = true := by decide +kernel
  have resolved : ResolvedUnits files units (units.map table) :=
    resolvedUnits_of_isOk (fun _ => rfl) resolves
  have shown :
      ((Matching.find false symbols ⟨"a", "I"⟩).1.map fun found =>
          (found.interface.methods.methods.any fun method => !method.name.isExported,
            found.implementers.map Symbol.typeString)) =
        [(true, ["a.T"])] := by
    decide +kernel
  obtain ⟨found, inFound, row⟩ := List.mem_map.mp (shown ▸ List.mem_singleton_self _)
  obtain ⟨hasUnexported, listed⟩ := Prod.mk.inj row
  have unexported :
      ∃ method ∈ found.interface.methods.methods, method.name.isExported = false := by
    simpa using hasUnexported
  exact ⟨resolved, found, inFound, unexported, listed,
    (ImportIndex.unexported_sealed resolved (List.Subset.refl _) (.inr rfl)).2 _ _ found inFound
      unexported⟩

end Sealed

end Implementers
