import Implementers.Proofs.Promotion.Package
import Implementers.Proofs.Scope.Heredity

/-!
# What method sets inherit

-/

namespace Implementers

open Syntax (TypeExpr FieldDecl FuncDecl)

namespace Hereditary

variable
  (kept : Hereditary)
  (scope : Scope)

/-! ## Declared methods -/

/-- The signatures of a table inherit a property. -/
def OfTable
    (table : MethodTable) :
    Prop :=
  ∀ method ∈ table.methods, kept.signature method.signature

theorem receiverBase
    (file : FileScope)
    (position : Position)
    (type : TypeExpr) :
    kept.Passes (fun _ => True) (scope.receiverBase file position type) := by
  unfold Scope.receiverBase
  split
  · split
    · exact .fail _
    · split
      · exact .fail _
      · exact .fail _
    · split
      · exact .answer trivial
      · refine .andThen (kept.underlyingOf scope _) fun _ _ => ?_
        split
        · exact .fail _
        · exact .answer trivial
  · exact .fail _

theorem receiverOf
    (file : FileScope)
    (receiver : Syntax.Receiver) :
    kept.Passes (fun _ => True) (scope.receiverOf file receiver) := by
  simp only [Scope.receiverOf]
  split
  · exact .fail _
  · exact .fail _
  · split
    · exact .fail _
    · exact .andThen (kept.receiverBase scope file _ _) fun _ _ => .answer trivial

/-- A declared method has a signature that inherits a property. -/
theorem addMethodDecl
    (file : FileScope)
    {table : MethodTable}
    (ofTable : kept.OfTable table)
    (func : FuncDecl) :
    kept.Passes kept.OfTable (scope.addMethodDecl file table func) := by
  unfold Scope.addMethodDecl
  split
  · exact .answer ofTable
  · refine .andThen (kept.receiverOf scope file _) fun base _ => ?_
    split
    · exact .answer ofTable
    · split
      · exact .answer ofTable
      · simp only
        split
        · exact .answer ofTable
        · refine .andThen (kept.lowerSignature scope file _ _) fun signature good => ?_
          split
          · exact .fail _
          · refine .answer (List.forall_mem_append.mpr ⟨ofTable, fun method member => ?_⟩)
            rw [List.mem_singleton.mp member]
            exact good

theorem addMethodDecls
    (funcs : List (FileScope × FuncDecl)) :
    ∀ {table : MethodTable}, kept.OfTable table →
      kept.Passes kept.OfTable (scope.addMethodDecls table funcs) := by
  induction funcs with
  | nil => exact fun ofTable => .answer ofTable
  | cons func rest inductionHypothesis =>
      exact fun ofTable =>
        .andThen (kept.addMethodDecl scope func.1 ofTable func.2) fun _ ofAdded =>
          inductionHypothesis ofAdded

/-- Every method of a package's table has a signature that inherits a property. -/
theorem methodTable :
    kept.Passes kept.OfTable scope.methodTable :=
  kept.addMethodDecls scope _ fun _ member => nomatch member

/-! ## Promoted methods -/

/-- What a member that is a method has as its signature inherits a property. -/
def OfMember : Member → Prop
  | .method _ signature _ => kept.signature signature
  | .field => True

/-- The methods among members inherit a property. -/
def OfMembers
    (members : List NamedMember) :
    Prop :=
  ∀ member ∈ members, kept.OfMember member.2

variable
  {kept}

theorem OfMembers.append
    {first second : List NamedMember}
    (ofFirst : kept.OfMembers first)
    (ofSecond : kept.OfMembers second) :
    kept.OfMembers (first ++ second) :=
  List.forall_mem_append.mpr ⟨ofFirst, ofSecond⟩

theorem OfMembers.weighed
    {members : List NamedMember}
    (ofMembers : kept.OfMembers members)
    (count : Nat) :
    kept.OfMembers (Scope.weighed count members) := by
  unfold Scope.weighed
  split
  · exact ofMembers
  · intro member inWeighed
    obtain ⟨original, inMembers, isOne⟩ := List.mem_flatMap.mp inWeighed
    rcases List.mem_pair.mp isOne with rfl | rfl
    · exact trivial
    · exact ofMembers _ inMembers

theorem ofMembers_interfaceMembers
    {methods : MethodSet}
    (inherits : kept.methods methods) :
    kept.OfMembers (Scope.interfaceMembers methods) := by
  intro member inMembers
  obtain ⟨method, inMethods, rfl⟩ := List.mem_map.mp inMembers
  exact kept.held inherits method inMethods

theorem ofMembers_declaredMembers
    {table : MethodTable}
    (ofTable : kept.OfTable table)
    (name : String)
    (indirect : Bool) :
    kept.OfMembers (Scope.declaredMembers table name indirect) := by
  intro member inMembers
  obtain ⟨method, inTable, rfl⟩ := List.mem_map.mp inMembers
  exact ofTable method (List.mem_of_mem_filter inTable)

theorem ofMembers_fieldMembers
    (fields : List FieldDecl) :
    kept.OfMembers (fields.flatMap Scope.fieldMembers) := by
  intro member inMembers
  obtain ⟨field, _, ofField⟩ := List.mem_flatMap.mp inMembers
  have isField : member.2 = .field := by
    unfold Scope.fieldMembers at ofField
    split at ofField
    · obtain ⟨_, _, rfl⟩ := Option.map_eq_some_iff.mp (Option.mem_toList.mp ofField)
      rfl
    · obtain ⟨_, _, rfl⟩ := List.mem_map.mp ofField
      rfl
  rw [isField]
  exact trivial

/-- A promoted method is the only member of its name. -/
theorem ofMember_promoted
    {members : List Member}
    (ofMembers : ∀ member ∈ members, kept.OfMember member)
    {method : Method}
    (promoted : Scope.promoted? members = some method) :
    kept.signature method.signature := by
  unfold Scope.promoted? at promoted
  split at promoted
  · cases promoted
    exact ofMembers _ (List.mem_singleton_self _)
  · cases promoted

/-- Methods put into a set one by one. -/
theorem methods_foldl
    (methods : List Method) :
    ∀ {set : MethodSet}, kept.methods set →
      (∀ method ∈ methods, kept.signature method.signature) →
        kept.methods
          (methods.foldl (fun set method => set.insert method.name method.signature) set) := by
  induction methods with
  | nil => exact fun inherits _ => inherits
  | cons method rest inductionHypothesis =>
      exact fun inherits own =>
        inductionHypothesis
          (kept.insert method.name inherits (own method List.mem_cons_self))
          fun other member => own other (List.mem_cons_of_mem _ member)

variable
  (kept)
  {table : MethodTable}
  (ofTable : kept.OfTable table)

include ofTable

theorem membersOf
    (target : EmbeddedTarget)
    (indirect : Bool) :
    kept.Passes (fun found => kept.OfMembers found.1)
      (scope.membersOf table target indirect) := by
  cases target with
  | errorInterface => exact .answer (ofMembers_interfaceMembers (kept.methods_errorMethods scope))
  | declared name =>
      have own := ofMembers_declaredMembers ofTable name indirect
      refine .andThen (kept.underlyingOf scope name) fun found good => ?_
      cases found with
      | interface interface => exact .answer (own.append (ofMembers_interfaceMembers good))
      | struct _ fields => exact .answer (own.append (ofMembers_fieldMembers fields))
      | imported _ => exact .answer own
      | other => exact .answer own

theorem levelMembers :
    ∀ level : List ReachedType,
      kept.Passes (fun found => kept.OfMembers found.1) (scope.levelMembers table level)
  | [] => .answer fun _ member => nomatch member
  | reached :: rest =>
      .andThen (kept.membersOf scope ofTable reached.target reached.indirect) fun _ good =>
        .andThen (levelMembers rest) fun _ goodRest =>
          .answer ((good.weighed reached.count).append goodRest)

theorem promoteLevel
    {promotion : Scope.PromotionState}
    (inherits : kept.methods promotion.methods) :
    kept.Passes (fun next => kept.methods next.methods) (scope.promoteLevel table promotion) := by
  refine .andThen (kept.levelMembers scope ofTable _) fun found good => .answer ?_
  refine methods_foldl _ inherits fun method member => ?_
  obtain ⟨name, _, promoted⟩ := List.mem_filterMap.mp member
  refine ofMember_promoted (fun one ofName => ?_) promoted
  obtain ⟨named, inFound, rfl⟩ := List.mem_map.mp ofName
  exact good named (List.mem_of_mem_filter inFound)

theorem promoteWithin
    (levels : Nat) :
    ∀ {promotion : Scope.PromotionState}, kept.methods promotion.methods →
      kept.Passes kept.methods (scope.promoteWithin table levels promotion) := by
  induction levels with
  | zero => exact fun inherits => .answer inherits
  | succ levels inductionHypothesis =>
      intro promotion inherits
      simp only [Scope.promoteWithin]
      split
      · exact .answer inherits
      · exact .andThen (kept.promoteLevel scope ofTable inherits) fun _ good =>
          inductionHypothesis good

/-- The method set of a declared type, or of the pointer to it, inherits a property. -/
theorem concreteMethods
    (base : String)
    (pointer : Bool) :
    kept.Passes kept.methods (scope.concreteMethods table base pointer) :=
  kept.promoteWithin scope ofTable _ kept.empty

/-! ## The symbols of a package -/

omit ofTable in
theorem warnUnpromoted
    (file : FileScope)
    (owner : String)
    (fields : List FieldDecl) :
    kept.Passes (fun _ => True) (scope.warnUnpromoted file owner fields) := by
  induction fields with
  | nil => exact .answer trivial
  | cons field rest inductionHypothesis =>
      simp only [Scope.warnUnpromoted]
      split
      · exact .andThen (.warn _) fun _ _ => inductionHypothesis
      · exact .andThen (.answer trivial : kept.Passes (fun _ => True) _) fun _ _ =>
          inductionHypothesis

/-- The method sets of placed symbols inherit a property. -/
def OfSymbols
    (symbols : List PlacedSymbol) :
    Prop :=
  ∀ placed ∈ symbols, kept.methods placed.symbol.methods

omit ofTable in
theorem ofSymbols_none :
    kept.OfSymbols (none : Option PlacedSymbol).toList :=
  fun _ member => nomatch member

omit ofTable in
theorem ofSymbols_some
    {placed : PlacedSymbol}
    (good : kept.methods placed.symbol.methods) :
    kept.OfSymbols (some placed).toList :=
  List.forall_mem_singleton.mpr good

/-- What is underneath a declaration makes a symbol with its methods. -/
theorem underlyingSymbol?
    (decl : TypeDecl) :
    kept.Passes (fun symbol => kept.OfSymbols symbol.toList)
      (scope.underlyingSymbol? table decl) := by
  have concrete :
      kept.Passes (fun symbol => kept.OfSymbols symbol.toList)
        ((scope.concreteMethods table decl.name false).andThen fun methods =>
          .answer (some (scope.typeSymbol decl .concrete methods false))) :=
    .andThen (kept.concreteMethods scope ofTable decl.name false) fun _ good =>
      .answer (kept.ofSymbols_some good)
  refine .andThen (kept.underlyingOf scope decl.name) fun found good => ?_
  cases found with
  | interface interface =>
      simp only
      split
      · exact .answer kept.ofSymbols_none
      · exact .answer (kept.ofSymbols_some good)
  | _ => exact concrete

theorem declSymbol?
    (decl : TypeDecl) :
    kept.Passes (fun symbol => kept.OfSymbols symbol.toList)
      (scope.declSymbol? table decl) := by
  have underneath := kept.underlyingSymbol? scope ofTable decl
  unfold Scope.declSymbol?
  split
  · exact .answer kept.ofSymbols_none
  · split
    · exact .andThen (kept.warnUnpromoted scope _ _ _) fun _ _ => underneath
    · exact underneath

theorem declSymbols
    (decls : List TypeDecl) :
    kept.Passes kept.OfSymbols (scope.declSymbols table decls) := by
  induction decls with
  | nil => exact .answer fun _ member => nomatch member
  | cons decl rest inductionHypothesis =>
      exact .andThen (kept.declSymbol? scope ofTable decl) fun _ good =>
        .andThen inductionHypothesis fun _ goodRest =>
          .answer (List.forall_mem_append.mpr ⟨good, goodRest⟩)

theorem siteSymbol?
    (site : ReceiverSite) :
    kept.Passes (fun symbol => kept.OfSymbols symbol.toList)
      (scope.siteSymbol? table site) := by
  unfold Scope.siteSymbol?
  split
  · exact .answer kept.ofSymbols_none
  · exact .andThen (kept.concreteMethods scope ofTable _ _) fun _ good =>
      .answer (kept.ofSymbols_some good)

theorem siteSymbols
    (sites : List ReceiverSite) :
    kept.Passes kept.OfSymbols (scope.siteSymbols table sites) := by
  induction sites with
  | nil => exact .answer fun _ member => nomatch member
  | cons site rest inductionHypothesis =>
      exact .andThen (kept.siteSymbol? scope ofTable site) fun _ good =>
        .andThen inductionHypothesis fun _ goodRest =>
          .answer (List.forall_mem_append.mpr ⟨good, goodRest⟩)

omit ofTable in
/-- The method sets of a package's symbols inherit a property. -/
theorem symbols :
    kept.Passes (fun symbols => ∀ symbol ∈ symbols, kept.methods symbol.methods)
      scope.symbols := by
  refine .andThen (kept.methodTable scope) fun table ofTable => ?_
  refine .andThen (kept.declSymbols scope ofTable _) fun types ofTypes => ?_
  refine .andThen (kept.siteSymbols scope ofTable _) fun receivers ofReceivers => ?_
  refine .answer fun symbol member => ?_
  obtain ⟨placed, inSorted, rfl⟩ := List.mem_map.mp member
  exact List.forall_mem_append.mpr ⟨ofTypes, ofReceivers⟩ placed (List.mem_mergeSort.mp inSorted)

omit ofTable in
/-- A resolution leaves a table and a state behind that inherit a property. -/
theorem of_resolution
    {scope : Scope}
    (resolution : Scope.Resolution scope) :
    kept.OfTable resolution.table ∧ kept.OfState resolution.final ∧
      ∀ symbol ∈ resolution.symbols, kept.methods symbol.methods := by
  obtain ⟨ofTable, _⟩ := kept.methodTable scope _ _ _ kept.ofState_initial resolution.ranMethods
  obtain ⟨ofSymbols, ofFinal⟩ :=
    kept.symbols scope _ _ _ kept.ofState_initial
      (Scope.symbols_ok.mpr ⟨resolution, rfl, rfl⟩)
  exact ⟨ofTable, ofFinal, ofSymbols⟩

end Hereditary

end Implementers
