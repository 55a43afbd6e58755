import Implementers.Proofs.Interfaces.Sources
import Implementers.Proofs.Promotion.Package

namespace Implementers

/-!
# The interfaces of a package

When a package resolves, all that is remembered at the end is founded in the declarations.  So each
declared type that is neither an alias nor generic leads to a source, and when this is an interface,
what is underneath the type gathers the closure of the source.
-/

namespace Scope.Resolution

variable
  {scope : Scope}
  (resolution : Resolution scope)

/-- Nothing is looked into any more at the end of a resolution. -/
theorem settled :
    resolution.final.Settled scope := by
  obtain ⟨tabled, _⟩ := resolution.steady_tabled
  obtain ⟨known, _⟩ := resolution.steady_known
  obtain ⟨final, coherent⟩ := resolution.steady_final
  have steady := (tabled.trans known).trans final
  exact ⟨coherent, steady.inProgress, steady.expanding⟩

/-- Whatever is remembered at the end of a resolution is founded in the declarations. -/
theorem founded :
    resolution.final.Founded scope resolution.final := by
  have agreement :=
    (grounded_meaning resolution.settled (scope.decls.length + 1) (Nat.le_refl _)).agreement
  obtain ⟨_, tabledCoherent⟩ := resolution.steady_tabled
  obtain ⟨steadyKnown, knownCoherent⟩ := resolution.steady_known
  obtain ⟨steadyFinal, _⟩ := resolution.steady_final
  have tabled : resolution.tabled.Founded scope resolution.final := by
    have declaring :=
      (founding scope resolution.final).addMethodDecls_stay agreement .empty scope.funcDecls
    apply declaring.founds .initial resolution.table
    exact
      { coherent := ScopeState.initial_coherent scope
        founded := fun _ _ finished => by cases finished
        covers := steadyFinal.covers.trans steadyKnown.covers
        answered := resolution.ranMethods }
  have known : resolution.known.Founded scope resolution.final := by
    have asking := (founding scope resolution.final).askAll
      ((founding scope resolution.final).declSymbol?_stay agreement resolution.table) scope.decls
    apply asking.founds resolution.tabled resolution.types
    exact ⟨tabledCoherent, tabled, steadyFinal.covers, resolution.ranTypes⟩
  have asking := (founding scope resolution.final).askAll
    ((founding scope resolution.final).siteSymbol?_stay agreement resolution.table)
    resolution.table.receivers
  apply asking.founds resolution.known resolution.sites
  exact ⟨knownCoherent, known, .refl _, resolution.ranSites⟩

/-- What is underneath a declared type at the end of a resolution was found on the way. -/
theorem lookup_final
    (distinct : (scope.decls.map TypeDecl.name).Nodup)
    {decl : TypeDecl}
    (member : decl ∈ scope.decls)
    (kept : (decl.spec.isAlias || decl.spec.generic) = false) :
    ∃ underlying, resolution.final.finished.lookup decl.name = some underlying ∧
      resolution.final.underlying decl.name = underlying := by
  obtain ⟨steady, _⟩ := resolution.steady_final
  have isFinal {underlying : Underlying}
      (found : resolution.known.finished.lookup decl.name = some underlying) :
      ∃ underlying, resolution.final.finished.lookup decl.name = some underlying ∧
        resolution.final.underlying decl.name = underlying :=
    ⟨underlying, steady.covers _ _ found, steady.covers.finds _ _ found⟩
  obtain ⟨_, _, answers⟩ := exists_related_right (resolution.typeAnswers distinct) member
  cases answers with
  | passedOver isPassedOver =>
      rw [isPassedOver] at kept
      cases kept
  | interface _ found => exact isFinal found
  | concrete _ found _ _ => exact isFinal found

/-- What is underneath a declared type does not change after it was found. -/
theorem eq_of_found
    {name : String}
    {underlying earlier : Underlying}
    (underneath : resolution.final.underlying name = underlying)
    (found : resolution.known.finished.lookup name = some earlier) :
    earlier = underlying :=
  (resolution.steady_final.1.covers.finds _ _ found).symm.trans underneath

/-- An interface that is a symbol is no mere constraint. -/
theorem ordinary_of_symbol
    (distinct : (scope.decls.map TypeDecl.name).Nodup)
    {interface : InterfaceMethods}
    {symbol : Symbol}
    (member : symbol ∈ resolution.symbols)
    (isInterface : symbol.kind = .interface)
    (underneath : resolution.final.underlying symbol.name = .interface interface) :
    interface.isConstraint = false := by
  cases resolution.makes_of_mem distinct member with
  | interface _ found ordinary =>
      cases found.symm.trans underneath
      exact ordinary
  | concrete _ _ => cases isInterface
  | receiver _ _ => cases isInterface

/-- The interface of a declared type is a symbol unless it is a mere constraint. -/
theorem mem_symbols_iff
    (distinct : (scope.decls.map TypeDecl.name).Nodup)
    {decl : TypeDecl}
    (member : decl ∈ scope.decls)
    (kept : (decl.spec.isAlias || decl.spec.generic) = false)
    {interface : InterfaceMethods}
    (underneath : resolution.final.underlying decl.name = .interface interface) :
    (∃ symbol ∈ resolution.symbols, symbol.kind = .interface ∧ symbol.name = decl.name ∧
        symbol.methods = interface.methods ∧ symbol.isPartial = interface.isPartial) ↔
      interface.isConstraint = false := by
  constructor
  · intro isSymbol
    obtain ⟨symbol, symbolMember, isInterface, isNamed, _⟩ := isSymbol
    rw [← isNamed] at underneath
    exact resolution.ordinary_of_symbol distinct symbolMember isInterface underneath
  · intro ordinary
    obtain ⟨answer, answerMember, answers⟩ :=
      exists_related_right (resolution.typeAnswers distinct) member
    cases answers with
    | passedOver isPassedOver =>
        rw [isPassedOver] at kept
        cases kept
    | interface _ found =>
        cases resolution.eq_of_found underneath found
        rw [if_neg (by simp [ordinary])] at answerMember
        exact ⟨_, resolution.mem_symbols.mpr ⟨_, Or.inl answerMember, rfl⟩, rfl, rfl, rfl, rfl⟩
    | concrete _ found notInterface _ =>
        cases resolution.eq_of_found underneath found
        cases notInterface

/-- A declared type leads to a source, which what is found underneath the type fits. -/
theorem sourced
    (distinct : (scope.decls.map TypeDecl.name).Nodup)
    {decl : TypeDecl}
    (member : decl ∈ scope.decls)
    (kept : (decl.spec.isAlias || decl.spec.generic) = false) :
    scope.Sourced resolution.final decl.file decl.spec.type
      (resolution.final.underlying decl.name) := by
  obtain ⟨underlying, found, same⟩ := resolution.lookup_final distinct member kept
  obtain ⟨other, declared, isSourced⟩ := resolution.founded _ _ found
  obtain rfl : decl = other :=
    Option.some.inj ((lookup?_of_mem distinct member).symm.trans declared)
  rwa [same]

end Scope.Resolution

/--
The interfaces of a package that resolves.  Every declared type that is neither an alias nor generic
leads to a source, and what is underneath it is an interface exactly when the source is one.  Then
the interface has the methods that are written in the closure of the source and no others; it is a
partial one when a type of another package is in the closure, and a mere constraint, which is no
symbol, when a restriction is.
-/
theorem resolvePackage_gathers
    {package : PackageId}
    {files : List FileScope}
    {symbols : List Symbol}
    {warnings : List Warning}
    (resolved : resolvePackage package files = .ok (symbols, warnings)) :
    ∃ scope final,
      Scope.ofFiles package files = .ok scope ∧
      scope.symbols .initial = (.ok symbols, final) ∧
      ∀ decl ∈ scope.decls, (decl.spec.isAlias || decl.spec.generic) = false →
        ∃ source, scope.Denotes decl.file decl.spec.type source ∧
          (final.underlying decl.name).isInterface = source.isInterface ∧
          (source.isInterface = true →
            ∃ interface, final.underlying decl.name = .interface interface ∧
              scope.Gathers final source interface ∧
              (∀ name signature, interface.methods.Has (scope.methodName name) signature ↔
                scope.Written final source name signature) ∧
              ((∃ symbol ∈ symbols, symbol.kind = .interface ∧ symbol.name = decl.name ∧
                  symbol.methods = interface.methods ∧ symbol.isPartial = interface.isPartial) ↔
                interface.isConstraint = false)) := by
  obtain ⟨scope, resolution, opened, rfl, answered⟩ := resolvePackage_ok resolved
  have distinct := Scope.nodup_names_of_ofFiles opened
  refine ⟨scope, resolution.final, opened, answered, ?_⟩
  intro decl member kept
  obtain ⟨source, denotes, fits⟩ := resolution.sourced distinct member kept
  refine ⟨source, denotes, fits.isInterface_eq, ?_⟩
  intro isInterface
  obtain ⟨interface, underneath, gathers⟩ := fits.gathers isInterface
  exact ⟨interface, underneath, gathers, gathers.has_iff_written,
    resolution.mem_symbols_iff distinct member kept underneath⟩

namespace Layers

open Sketch (declares ident named package)

/-- The elements `D`, `error`, `io.Reader`, `N()` and `M()`. -/
def elems : List Syntax.Elem :=
  [ .embedded ⟨84, 85⟩ (named 84 "D"), .embedded ⟨87, 92⟩ (named 87 "error"),
    .embedded ⟨94, 103⟩
      (.name ⟨94, 103⟩ (some (ident 94 "io")) (some (ident 97 "Reader")) false []),
    .method ⟨105, 108⟩ (some (ident 105 "N")) (.list ⟨106, 108⟩ []) .absent,
    .method ⟨110, 113⟩ (some (ident 110 "M")) (.list ⟨111, 113⟩ []) .absent ]

/-- The declaration `type I interface{ D; error; io.Reader; N(); M() }`. -/
def interfaceType : Syntax.TypeSpec :=
  declares 71 "I" false (.interface ⟨73, 115⟩ elems)

/--
The file that imports `io` and declares `type A interface{ M() }`, `type B = A`, `type D B` and the
interface.
-/
def file : FileScope :=
  { Sketch.file
      [ declares 27 "A" false
          (.interface ⟨29, 45⟩
            [.method ⟨40, 43⟩ (some (ident 40 "M")) (.list ⟨41, 43⟩ []) .absent]),
        declares 51 "B" true (named 55 "A"), declares 62 "D" false (named 64 "B"),
        interfaceType ]
      [] with
    imports := [("io", "io")] }

/-- The declarations of the package. -/
def scope : Scope :=
  ⟨package, [file], Scope.declsOf file⟩

/-- The interface gathers what it embeds through a definition, an alias and a predeclared name. -/
theorem resolvePackage_gathers_layers :
    ∃ symbols final,
      scope.symbols .initial = (.ok symbols, final) ∧
      ∃ interface, final.underlying "I" = .interface interface ∧
        scope.Gathers final (.body file elems) interface := by
  have resolves : (resolvePackage package [file]).isOk = true := by decide +kernel
  have declared : ⟨"I", file, interfaceType, 71⟩ ∈ scope.decls :=
    List.mem_filterMap.mpr ⟨interfaceType, by simp [file, Sketch.file], rfl⟩
  obtain ⟨⟨symbols, warnings⟩, resolved⟩ := exists_ok_of_isOk resolves
  obtain ⟨opened, final, isOpened, answered, gathered⟩ := resolvePackage_gathers resolved
  obtain rfl : scope = opened := Except.ok.inj isOpened
  obtain ⟨source, denotes, _, ofInterface⟩ :=
    gathered ⟨"I", file, interfaceType, 71⟩ declared rfl
  obtain rfl := denotes.unique .interface
  obtain ⟨interface, underneath, gathers, _⟩ := ofInterface rfl
  exact ⟨symbols, final, answered, interface, underneath, gathers⟩

end Layers

end Implementers
