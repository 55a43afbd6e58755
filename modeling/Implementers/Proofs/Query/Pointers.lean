import Implementers.Proofs.Promotion.Inheritance
import Implementers.Proofs.Query.Entities
import Implementers.Proofs.Query.Localization
import Implementers.Proofs.Query.Transitivity

/-!
# A pointer has every method of its base

The embedded fields that lead from a type lead from the pointer to it as well, to the same
declarations, so names are found at the same depths and are ambiguous at the same depths.  Only what
can be called differs, and through the pointer everything can.  So the pointer has the methods of
its base, and where the base implements an interface the pointer does too.
-/

namespace Implementers

namespace View

/-- A type as it is seen through a pointer. -/
def through
    (view : View) :
    View :=
  { view with pointer := true }

@[simp] theorem endOf_through
    (view : View)
    (path : EmbeddingPath) :
    view.through.endOf path = view.endOf path := by
  cases path <;> rfl

@[simp] theorem crosses_through
    (view : View)
    (path : EmbeddingPath) :
    view.through.crosses path = true :=
  rfl

end View

namespace Embedding

variable
  {embedding : Embedding}
  {view : View}

@[simp] theorem paths_through
    (depth : Nat) :
    embedding.paths view.through depth = embedding.paths view depth := by
  induction depth with
  | zero => rfl
  | succ depth inductionHypothesis => simp [paths, inductionHypothesis]

@[simp] theorem found_through
    (depth : Nat)
    (name : String) :
    embedding.found view.through depth name = embedding.found view depth name := by
  simp [found]

@[simp] theorem hidden_through
    (depth : Nat)
    (name : String) :
    embedding.Hidden view.through depth name ↔ embedding.Hidden view depth name := by
  simp [Hidden]

theorem Promotes.through
    {method : Method}
    (promotes : embedding.Promotes view method) :
    embedding.Promotes view.through method := by
  obtain ⟨depth, path, pointerOnly, hidden, single, _⟩ := promotes
  refine ⟨depth, path, pointerOnly, ?_, ?_, fun _ => view.crosses_through path⟩
  · simpa using hidden
  · simpa using single

theorem Overlooked.through
    {method : Method}
    (overlooked : embedding.Overlooked view method) :
    embedding.Overlooked view.through method := by
  obtain ⟨depth, step, pointerOnly, hidden, several, single, same, _⟩ := overlooked
  refine ⟨depth, step, pointerOnly, ?_, ?_, single, ?_, fun _ => ?_⟩
  · simpa using hidden
  · simpa using several
  · simpa using same
  · obtain ⟨pair, isFound⟩ :=
      List.exists_mem_of_length_pos (Nat.lt_of_lt_of_le Nat.zero_lt_two several)
    exact ⟨pair, by simpa using isFound, view.crosses_through pair.1⟩

/-- Whatever a view selects is selected through a pointer as well. -/
theorem Selected.subset_through
    {values pointers : MethodSet}
    (ofView : embedding.Selected view values)
    (ofPointer : embedding.Selected view.through pointers) :
    values.methods ⊆ pointers.methods := by
  intro method member
  refine (ofPointer.members method).mpr ?_
  exact ((ofView.members method).mp member).imp Promotes.through Overlooked.through

end Embedding

/-- A set satisfies those whose methods it has. -/
theorem MethodSet.satisfies_of_subset
    {set required : MethodSet}
    (distinct : set.Distinct)
    (subset : required.methods ⊆ set.methods) :
    set.satisfies required := by
  refine (satisfies_iff_holds distinct).mpr fun method member => ?_
  refine ⟨method, subset member, MethodName.same_iff.mpr ⟨rfl, rfl⟩, ?_⟩
  exact Signature.same_refl _ ((distinct_iff.mp distinct).2 method (subset member))

/-! ## Packages -/

/-- Whether a symbol is the pointer to the type that another symbol is. -/
structure Symbol.PointsTo
    (receiver value : Symbol) :
    Prop where
  package : receiver.package.same value.package
  name : receiver.name = value.name
  pointer : receiver.pointer = true
  base : value.pointer = false

/-- Whether a symbol is a complete concrete one with the methods of another symbol. -/
structure Symbol.Substitutes
    (receiver value : Symbol) :
    Prop where
  concrete : receiver.kind = .concrete
  complete : receiver.isPartial = false
  satisfies : receiver.methods.satisfies value.methods

namespace Scope.Resolution

variable
  {scope : Scope}
  (resolution : Resolution scope)

/-- The pointer to a concrete type has every method of the type. -/
theorem subset_of_selects
    {base : String}
    {values pointers : MethodSet}
    (ofBase : scope.Selects resolution.table resolution.final base false values)
    (ofPointer : scope.Selects resolution.table resolution.final base true pointers) :
    values.methods ⊆ pointers.methods :=
  Embedding.Selected.subset_through ofBase ofPointer

/-- A method set that is asked for once a package has resolved has one method for each name. -/
theorem distinct_concreteMethods
    {base : String}
    {pointer : Bool}
    {methods : MethodSet}
    {after : ScopeState}
    (ran : scope.concreteMethods resolution.table base pointer resolution.final =
      (.ok methods, after)) :
    methods.Distinct := by
  obtain ⟨ofTable, ofFinal, _⟩ := distinctness.of_resolution resolution
  exact (distinctness.concreteMethods scope ofTable base pointer _ _ _ ofFinal ran).1

/-- The pointer to a type is found as a symbol where a receiver is named, so it is concrete. -/
theorem concrete_of_pointer
    (distinct : (scope.decls.map TypeDecl.name).Nodup)
    {symbol : Symbol}
    (member : symbol ∈ resolution.symbols)
    (pointer : symbol.pointer = true) :
    symbol.kind = .concrete := by
  cases resolution.makes_of_mem distinct member with
  | interface _ _ _ => cases pointer
  | concrete _ _ => rfl
  | receiver _ _ => rfl

/-- Whether an entity is an interface does not depend on its view. -/
theorem kind_entity
    (decl : TypeDecl)
    (pointer other : Bool) :
    (resolution.entity decl pointer).kind = (resolution.entity decl other).kind := by
  unfold entity
  split <;> rfl

/-- A concrete entity lacks no methods from other packages. -/
theorem complete_entity
    {decl : TypeDecl}
    {pointer : Bool}
    (concrete : (resolution.entity decl pointer).kind = .concrete) :
    (resolution.entity decl pointer).isPartial = false := by
  unfold entity at concrete ⊢
  split at concrete
  · cases concrete
  · rfl

/-- The symbol of the pointer to a type can stand for the symbol of the type. -/
theorem substitutes_of_pointsTo
    (distinct : (scope.decls.map TypeDecl.name).Nodup)
    {receiver value : Symbol}
    (receiverMember : receiver ∈ resolution.symbols)
    (valueMember : value ∈ resolution.symbols)
    (pointsTo : receiver.PointsTo value) :
    receiver.Substitutes value := by
  have concrete := resolution.concrete_of_pointer distinct receiverMember pointsTo.pointer
  obtain ⟨decl, ofReceiver, ofValue⟩ :=
    resolution.entities_of_name distinct receiverMember valueMember pointsTo.name
  have valueConcrete : value.kind = .concrete := by
    rw [← ofValue.kind, resolution.kind_entity decl _ receiver.pointer, ofReceiver.kind, concrete]
  have ofPointer := resolution.selects_of_symbol distinct receiverMember concrete
  have ofBase := resolution.selects_of_symbol distinct valueMember valueConcrete
  rw [pointsTo.pointer, pointsTo.name] at ofPointer
  rw [pointsTo.base] at ofBase
  refine ⟨concrete, ?_, ?_⟩
  · rw [← ofReceiver.isPartial, resolution.complete_entity (ofReceiver.kind.trans concrete)]
  · exact MethodSet.satisfies_of_subset
      ((distinctness.of_resolution resolution).2.2 receiver receiverMember)
      (resolution.subset_of_selects ofBase ofPointer)

end Scope.Resolution

/-! ## Units -/

/-- Replacing owners keeps a symbol for which another one can stand. -/
theorem Symbol.Substitutes.localize
    {receiver value : Symbol}
    (substitutes : receiver.Substitutes value)
    (scanned : ScannedPackages) :
    (receiver.localize scanned).Substitutes (value.localize scanned) where
  concrete := substitutes.concrete
  complete := substitutes.complete
  satisfies := MethodSet.localize_satisfies scanned substitutes.satisfies

/-- Whatever a symbol can stand for, so can one that differs in its place only. -/
theorem Symbol.Substitutes.of_agrees
    {receiver other value : Symbol}
    (substitutes : receiver.Substitutes value)
    (agrees : other.Agrees receiver) :
    other.Substitutes value where
  concrete := agrees.kind.trans substitutes.concrete
  complete := agrees.isPartial.trans substitutes.complete
  satisfies := agrees.methods ▸ substitutes.satisfies

/-- Symbols of units in which keys decide, and pointers can stand for their bases. -/
structure Universe.Settled
    (symbols : Universe) :
    Prop where
  agrees : ∀ left ∈ symbols, ∀ right ∈ symbols, left.identity.same right.identity →
    left.Agrees right
  substitutes : ∀ receiver ∈ symbols, ∀ value ∈ symbols, receiver.PointsTo value →
    receiver.Substitutes value

/-- The symbols of units with different paths are settled. -/
theorem settled_of_resolved
    {files : FileSystem}
    {units : List SourceUnit}
    {tables : List SymbolTable}
    (distinct : units.Pairwise fun left right => ¬left.path.same right.path)
    (resolved : ResolvedUnits files units tables)
    {symbols : Universe}
    (gathered : symbols ⊆ tables.flatMap SymbolTable.symbols) :
    symbols.Settled where
  agrees _ leftMember _ rightMember same :=
    agrees_of_identity distinct resolved (gathered leftMember) (gathered rightMember) same
  substitutes receiver receiverMember value valueMember pointsTo := by
    obtain ⟨_, own, _, isResolved, inOwn, valueInOwn⟩ :=
      together_of_package distinct resolved (gathered receiverMember) (gathered valueMember)
        pointsTo.package
    obtain ⟨scope, resolution, opened, rfl, _⟩ := resolvePackage_ok isResolved
    exact resolution.substitutes_of_pointsTo (Scope.nodup_names_of_ofFiles opened) inOwn valueInOwn
      pointsTo

/-- Replacing owners keeps symbols settled. -/
theorem Universe.Settled.localize
    {symbols : Universe}
    (settled : symbols.Settled)
    (index : ImportIndex) :
    (index.localize symbols).Settled where
  agrees left leftMember right rightMember same := by
    obtain ⟨before, beforeMember, rfl⟩ := List.mem_map.mp leftMember
    obtain ⟨other, otherMember, rfl⟩ := List.mem_map.mp rightMember
    have sameBefore : before.identity.same other.identity := same
    exact (settled.agrees before beforeMember other otherMember sameBefore).localize _
  substitutes receiver receiverMember value valueMember pointsTo := by
    obtain ⟨before, beforeMember, rfl⟩ := List.mem_map.mp receiverMember
    obtain ⟨other, otherMember, rfl⟩ := List.mem_map.mp valueMember
    have pointsToBefore : before.PointsTo other :=
      ⟨pointsTo.package, pointsTo.name, pointsTo.pointer, pointsTo.base⟩
    exact (settled.substitutes before beforeMember other otherMember pointsToBefore).localize _

namespace Matching

/-- What a row is about is an interface of the universe. -/
theorem kind_of_find
    {concreteOnly : Bool}
    {symbols : Universe}
    {target : InterfaceName}
    {found : Match}
    (inFound : found ∈ (find concreteOnly symbols target).1) :
    found.interface.kind = .interface := by
  rw [find_fst] at inFound
  obtain ⟨interface, listed, rfl⟩ := List.mem_map.mp inFound
  have isFirst := Universe.mem_firsts_iff.mp (List.mem_of_mem_filter listed)
  have named := List.mem_of_find?_eq_some isFirst
  have isInterface : interface.isInterface = true := (List.mem_filter.mp named).2
  simpa [row, Symbol.isInterface] using isInterface

/-- In a settled universe the pointer to a type is listed where the type is. -/
theorem listed_of_pointsTo
    {symbols : Universe}
    (settled : symbols.Settled)
    {concreteOnly : Bool}
    {target : InterfaceName}
    {found : Match}
    (inFound : found ∈ (find concreteOnly symbols target).1)
    {receiver value : Symbol}
    (listed : value ∈ found.implementers)
    (member : receiver ∈ symbols)
    (pointsTo : receiver.PointsTo value) :
    ∃ first ∈ found.implementers, first.identity.same receiver.identity := by
  obtain ⟨valueFirst, implements⟩ := (mem_implementers_iff inFound).mp listed
  -- Of the entity of the pointer the first symbol decides, and it differs in its place only.
  have isFound :
      (symbols.find? fun first => first.identity.same receiver.identity).isSome = true :=
    List.find?_isSome.mpr ⟨receiver, member, IdentityKey.same_self _⟩
  obtain ⟨first, isFirst⟩ := Option.isSome_iff_exists.mp isFound
  have same : first.identity.same receiver.identity := by
    simpa using List.find?_some isFirst
  have firstMember := List.mem_of_find?_eq_some isFirst
  have substitutes : first.Substitutes value :=
    (settled.substitutes receiver member value (List.mem_of_find?_eq_some valueFirst)
      pointsTo).of_agrees (settled.agrees first firstMember receiver member same)
  refine ⟨first, (mem_implementers_iff inFound).mpr ⟨?_, ?_⟩, same⟩
  · simpa only [IdentityKey.same_congr_right same] using isFirst
  · refine ⟨substitutes.complete, fun _ => substitutes.concrete, fun sameInterface => ?_, ?_⟩
    · have kind :=
        (settled.agrees first firstMember found.interface (interface_of_find inFound)
          sameInterface).kind
      rw [substitutes.concrete, kind_of_find inFound] at kind
      cases kind
    · exact MethodSet.satisfies_trans substitutes.satisfies implements.satisfies

end Matching

/--
A pointer has every method of its base.  In a package that resolves, the method sets of a concrete
type and of the pointer to it can be asked for, and the latter has the methods of the former, as the
symbols of both have.  So among the symbols of units with different paths, before and after the
owners of scanned packages are replaced, the pointer to a type is listed for every interface that
the type is listed for.
-/
theorem pointers_implement :
    (∀ {package : PackageId} {files : List FileScope} {symbols : List Symbol}
        {warnings : List Warning},
      resolvePackage package files = .ok (symbols, warnings) →
      ∃ scope table final,
        Scope.ofFiles package files = .ok scope ∧
        (∃ after, scope.methodTable .initial = (.ok table, after)) ∧
        scope.symbols .initial = (.ok symbols, final) ∧
        (∀ decl ∈ scope.decls, (decl.spec.isAlias || decl.spec.generic) = false →
          (final.underlying decl.name).isInterface = false →
            ∃ values pointers after last,
              scope.concreteMethods table decl.name false final = (.ok values, after) ∧
              scope.concreteMethods table decl.name true final = (.ok pointers, last) ∧
              values.methods ⊆ pointers.methods ∧ pointers.satisfies values) ∧
        ∀ receiver ∈ symbols, ∀ value ∈ symbols, receiver.PointsTo value →
          receiver.methods.satisfies value.methods) ∧
      ∀ {files : FileSystem} {units : List SourceUnit} {tables : List SymbolTable},
        (units.Pairwise fun left right => ¬left.path.same right.path) →
        ResolvedUnits files units tables →
        ∀ symbols : Universe, symbols ⊆ tables.flatMap SymbolTable.symbols →
        ∀ stage, (stage = symbols ∨ stage = (ImportIndex.ofUnits units).localize symbols) →
        ∀ concreteOnly target, ∀ found ∈ (Matching.find concreteOnly stage target).1,
        ∀ value ∈ found.implementers, ∀ receiver ∈ stage, receiver.PointsTo value →
          ∃ listed ∈ found.implementers, listed.identity.same receiver.identity := by
  constructor
  · intro package files symbols warnings resolved
    obtain ⟨scope, resolution, opened, rfl, answered⟩ := resolvePackage_ok resolved
    have distinct := Scope.nodup_names_of_ofFiles opened
    refine ⟨scope, resolution.table, resolution.final, opened,
      ⟨resolution.tabled, resolution.ranMethods⟩, answered, ?_, ?_⟩
    · intro decl member kept notInterface
      obtain ⟨values, after, ran, ofBase⟩ :=
        resolution.selects_of_decl distinct member kept notInterface false
      obtain ⟨pointers, last, ranPointer, ofPointer⟩ :=
        resolution.selects_of_decl distinct member kept notInterface true
      have subset := resolution.subset_of_selects ofBase ofPointer
      exact ⟨values, pointers, after, last, ran, ranPointer, subset,
        MethodSet.satisfies_of_subset (resolution.distinct_concreteMethods ranPointer) subset⟩
    · intro receiver receiverMember value valueMember pointsTo
      exact (resolution.substitutes_of_pointsTo distinct receiverMember valueMember
        pointsTo).satisfies
  · intro files units tables distinct resolved symbols gathered stage isStage concreteOnly target
      found inFound value listed receiver member pointsTo
    have settled : stage.Settled := by
      rcases isStage with rfl | rfl
      · exact settled_of_resolved distinct resolved gathered
      · exact (settled_of_resolved distinct resolved gathered).localize _
    exact Matching.listed_of_pointsTo settled inFound listed member pointsTo

/-! ## Types that embed each other -/

/-- An outcome that is no failure is what it holds. -/
theorem eq_ok_of_isOk
    {outcome : Except UnitError α}
    (isOk : outcome.isOk = true)
    (other : α) :
    outcome = .ok (outcome.toOption.getD other) := by
  cases outcome with
  | error _ => cases isOk
  | ok _ => rfl

namespace Mutual

/--
The text of a file with an interface and two types that embed each other, one of them through a
pointer.  The method of the interface is promoted, and a receiver names the pointer to the type that
it is promoted to.
-/
def text : String :=
  "package a\n\ntype I interface{ M() }\n\ntype T struct{ E }\n\ntype E struct{ *T }\n\n" ++
    "func (E) M() {}\n\nfunc (t *T) N() {}\n"

/-- The directory of the file. -/
def files : FileSystem :=
  { root := .directory [("w", .directory [("a", .directory [("a.go", .file (.text text))])])]
    workingDirectory := ["w"] }

/-- The unit of the directory. -/
def unit : SourceUnit :=
  .directory ⟨"a"⟩ [⟨"a/a.go"⟩]

/-- The package of the file. -/
def package : PackageId :=
  ⟨⟨"a"⟩, "a"⟩

/-- The text that is read, with its path. -/
def texts : List (Path × String) :=
  (readFiles files unit.files).toOption.getD []

/-- The parsed file. -/
def parsed : List PackageFile :=
  (PackageFile.ofTexts texts).toOption.getD []

/-- The file of the package. -/
def scopes : List FileScope :=
  PackageFile.scopesOf parsed "a"

/-- The scope of the package. -/
def scope : Scope :=
  .opened package scopes

/-- The methods and named receivers of the package. -/
def table : MethodTable :=
  (scope.methodTable .initial).1.toOption.getD .empty

/-- The symbols of the package, the declared types before the named receivers. -/
def placed : Resolve (List PlacedSymbol) :=
  (scope.declSymbols table scope.decls).andThen fun types =>
    (scope.siteSymbols table table.receivers).andThen fun receivers =>
      .answer (types ++ receivers)

/-- The state after the function declarations have been asked about. -/
def tabled : ScopeState :=
  (scope.methodTable .initial).2

/-- The symbols of the package. -/
def symbols : List Symbol :=
  ((placed tabled).1.toOption.getD []).map PlacedSymbol.symbol

/-- The file is read, parsed and resolved, and its types and receivers stand in source order. -/
theorem steps_ok :
    ((readFiles files unit.files).isOk = true ∧ (PackageFile.ofTexts texts).isOk = true ∧
        PackageFile.packageNames parsed = ["a"]) ∧
      (scope.decls.map TypeDecl.name).Nodup ∧ (scope.methodTable .initial).1.isOk = true ∧
      (placed tabled).1.isOk = true ∧
      ((placed tabled).1.toOption.getD []).Pairwise fun left right => left.notAfter right := by
  decide +kernel

/-- The declared types and the named receiver are sorted already. -/
theorem symbols_ok :
    scope.symbols .initial = (.ok symbols, (placed tabled).2) := by
  obtain ⟨_, _, methodsOk, placedOk, sorted⟩ := steps_ok
  have ranMethods : scope.methodTable .initial = (.ok table, tabled) :=
    Prod.ext (eq_ok_of_isOk methodsOk _) rfl
  have ran : placed tabled = (.ok ((placed tabled).1.toOption.getD []), (placed tabled).2) :=
    Prod.ext (eq_ok_of_isOk placedOk _) rfl
  obtain ⟨types, middle, ranTypes, next⟩ := Resolve.andThen_ok ran
  obtain ⟨receivers, last, ranSites, returned⟩ := Resolve.andThen_ok next
  obtain ⟨isPlaced, isLast⟩ := Prod.mk.inj returned
  rw [← Except.ok.inj isPlaced] at sorted
  simp only [Scope.symbols, bind, Resolve.andThen, ranMethods, ranTypes, ranSites,
    List.mergeSort_of_pairwise sorted]
  rw [symbols, ← Except.ok.inj isPlaced, ← isLast]
  rfl

/-- The package resolves. -/
theorem resolvePackage_ok :
    resolvePackage package scopes = .ok (symbols, (placed tabled).2.warnings.reverse) := by
  have opened : Scope.ofFiles package scopes = .ok scope :=
    Scope.ofFiles_ok.mpr ⟨rfl, steps_ok.2.1⟩
  simp only [resolvePackage, opened, bind, Except.bind, symbols_ok]
  rfl

/-- The unit of the directory resolves. -/
theorem resolveUnit_ok :
    ∃ warnings, resolveUnit files unit = .ok (⟨some unit.path, symbols⟩, warnings) := by
  obtain ⟨⟨readOk, parsedOk, names⟩, _⟩ := steps_ok
  have read : readFiles files unit.files = .ok texts := eq_ok_of_isOk readOk _
  have isParsed : PackageFile.ofTexts texts = .ok parsed := eq_ok_of_isOk parsedOk _
  have resolved : resolvePackage ⟨unit.path, "a"⟩ (PackageFile.scopesOf parsed "a") = _ :=
    resolvePackage_ok
  refine ⟨(placed tabled).2.warnings.reverse, ?_⟩
  simp only [resolveUnit, read, isParsed, names, resolvePackages, resolved, bind, Except.bind, pure,
    Except.pure, List.append_nil]

/-- The pointer to the type is a symbol and listed for the interface, as the type itself is. -/
theorem pointers_implement_mutual :
    (∃ warnings, resolvePackage package scopes = .ok (symbols, warnings)) ∧
      ResolvedUnits files [unit] [⟨some unit.path, symbols⟩] ∧
      ∃ found ∈ (Matching.find false symbols ⟨"a", "I"⟩).1,
        ∃ value ∈ found.implementers, value.typeString = "a.T" ∧
          ∃ receiver ∈ symbols, receiver.typeString = "*a.T" ∧ receiver.PointsTo value ∧
            receiver.methods.satisfies value.methods ∧
            ∃ listed ∈ found.implementers, listed.identity.same receiver.identity := by
  have shown :
      ((Matching.find false symbols ⟨"a", "I"⟩).1.any fun found =>
        found.implementers.any fun value =>
          value.typeString == "a.T" &&
            symbols.any fun receiver =>
              receiver.typeString == "*a.T" && receiver.package.same value.package &&
                receiver.name == value.name && receiver.pointer && !value.pointer) = true := by
    decide +kernel
  simp only [List.any_eq_true, Bool.and_eq_true, beq_iff_eq, Bool.not_eq_true'] at shown
  obtain ⟨found, inFound, value, listed, type, receiver, member, ⟨⟨⟨receiverType, package⟩, name⟩,
    pointer⟩, base⟩ := shown
  have pointsTo : receiver.PointsTo value := ⟨package, name, pointer, base⟩
  have valueMember : value ∈ symbols :=
    List.mem_of_find?_eq_some ((Matching.mem_implementers_iff inFound).mp listed).1
  obtain ⟨_, _, _, _, _, _, _, satisfies⟩ := pointers_implement.1 resolvePackage_ok
  have resolved : ResolvedUnits files [unit] [⟨some unit.path, symbols⟩] :=
    .cons resolveUnit_ok .nil
  have listedPointer :=
    pointers_implement.2 (List.pairwise_singleton _ _) resolved symbols (by simp) symbols (.inl rfl)
      _ _ found inFound value listed receiver member pointsTo
  exact ⟨⟨_, resolvePackage_ok⟩, resolved, found, inFound, value, listed, type, receiver, member,
    receiverType, pointsTo, satisfies receiver member value valueMember pointsTo, listedPointer⟩

end Mutual

end Implementers
