import Implementers.Proofs.Query.Arrival
import Implementers.Proofs.Scope.Transferred
import Implementers.Query.Run

namespace Implementers

/-!
# Matches of counterparts

The counterparts of symbols agree with them in everything that a match depends on: the text of the
type, which symbols are of one entity, and whether a method set satisfies another one.  So a query
finds the counterparts of what it found before.  Without import paths nothing is scanned, and the
owners of imported types stay as they are.
-/

/-! ## Exchanging units -/

namespace Path

/-- The path with two paths exchanged for each other. -/
def exchange
    (first second path : Path) :
    Path :=
  if path.same first then second else if path.same second then first else path

/-- The first path is exchanged for the second one. -/
theorem exchange_first
    (first second : Path) :
    exchange first second first = second :=
  if_pos (same_iff.mpr rfl)

/-- Exchanging two paths keeps apart what was apart. -/
theorem exchange_same
    (first second left right : Path) :
    (exchange first second left).same (exchange first second right) = left.same right := by
  rw [Bool.eq_iff_iff]
  unfold exchange
  simp only [same_iff]
  split_ifs <;> simp_all [eq_comm]

end Path

namespace Renaming

/-- The renaming that exchanges the units of the packages of one name in two lists. -/
def exchanging
    (homes others : List PackageId) :
    Renaming where
  package before :=
    match homes.find? (·.name == before.name), others.find? (·.name == before.name) with
    | some home, some other => ⟨.exchange home.unit other.unit before.unit, before.name⟩
    | _, _ => before
  name before := by split <;> rfl
  same left right := by
    by_cases sameName : left.name = right.name
    · simp only [sameName]
      split <;> simp [PackageId.same, Path.exchange_same, sameName]
    · have apart (first second : PackageId) (isFirst : first.name = left.name)
          (isSecond : second.name = right.name) : first.same second = false := by
        simp [PackageId.same, isFirst, isSecond, sameName]
      rw [apart left right rfl rfl]
      exact apart _ _ (by split <;> rfl) (by split <;> rfl)

/-- A name is looked up among packages of different names. -/
theorem find?_name
    {packages : List PackageId}
    (distinct : (packages.map PackageId.name).Nodup)
    {package : PackageId}
    (member : package ∈ packages) :
    packages.find? (·.name == package.name) = some package := by
  cases found : packages.find? (·.name == package.name) with
  | none =>
      have absent := List.find?_eq_none.mp found package member
      simp at absent
  | some other =>
      have sameName : other.name = package.name := by
        simpa using List.find?_some found
      rw [List.inj_on_of_nodup_map distinct (List.mem_of_find?_eq_some found) member sameName]

/-- Each package becomes the one of its name in the other list. -/
theorem exchanging_package
    {homes others : List PackageId}
    (distinct : (homes.map PackageId.name).Nodup)
    (othersDistinct : (others.map PackageId.name).Nodup)
    {home other : PackageId}
    (member : home ∈ homes)
    (otherMember : other ∈ others)
    (sameName : home.name = other.name) :
    (exchanging homes others).package home = other := by
  have found := find?_name distinct member
  have otherFound := find?_name othersDistinct otherMember
  rw [← sameName] at otherFound
  simp only [exchanging, found, otherFound, Path.exchange_first]
  rw [sameName]

end Renaming

/-! ## Counterparts -/

namespace Transfer.Counterpart

variable
  {transfer : Transfer}
  {symbol symbol' other other' : Symbol}

/-- The text of the type stays the same. -/
theorem typeString
    (counterpart : transfer.Counterpart symbol symbol') :
    symbol'.typeString = symbol.typeString := by
  simp only [Symbol.typeString, Symbol.mark, Symbol.qualifiedName, counterpart.name,
    counterpart.package, counterpart.pointer, transfer.rename.name]

/-- Whether a symbol is an interface stays the same. -/
theorem isInterface
    (counterpart : transfer.Counterpart symbol symbol') :
    symbol'.isInterface = symbol.isInterface := by
  simp only [Symbol.isInterface, counterpart.kind]

/-- Whether a symbol has a name stays the same. -/
theorem isNamed
    (counterpart : transfer.Counterpart symbol symbol') :
    symbol'.isNamed = symbol.isNamed := by
  simp only [Symbol.isNamed, counterpart.name]

/-- Which symbols are of one entity stays the same. -/
theorem identity_same
    (counterpart : transfer.Counterpart symbol symbol')
    (otherCounterpart : transfer.Counterpart other other') :
    symbol'.identity.same other'.identity = symbol.identity.same other.identity := by
  simp only [Symbol.identity, IdentityKey.same, counterpart.typeString,
    otherCounterpart.typeString, counterpart.package, otherCounterpart.package,
    transfer.rename.same]

/-- Whether a candidate implements an interface stays the same. -/
theorem implements
    (concreteOnly : Bool)
    (interface : transfer.Counterpart symbol symbol')
    (candidate : transfer.Counterpart other other') :
    Matching.implements concreteOnly symbol' other' =
      Matching.implements concreteOnly symbol other := by
  simp only [Matching.implements, candidate.isPartial, candidate.isInterface,
    candidate.identity_same interface, candidate.methods, interface.methods,
    MethodSet.renamed_satisfies]

end Transfer.Counterpart

/-- Matches whose interfaces are related, and whose implementers are related one by one. -/
structure Match.Related
    (related : Symbol → Symbol → Prop)
    (before after : Match) :
    Prop where
  interface : related before.interface after.interface
  implementers : List.Forall₂ related before.implementers after.implementers

namespace Transfer

variable
  {transfer : Transfer}
  {related : Symbol → Symbol → Prop}
  (counterpart : ∀ symbol symbol', related symbol symbol' → transfer.Counterpart symbol symbol')
  {symbols symbols' : Universe}
  (counterparts : List.Forall₂ related symbols symbols')

include counterpart counterparts

/-- The first symbols of the entities are the counterparts of what they were. -/
theorem firsts :
    List.Forall₂ related (Universe.firsts symbols) (Universe.firsts symbols') := by
  induction counterparts with
  | nil => exact .nil
  | cons first _ inductionHypothesis =>
      refine .cons first (List.rel_filter (fun symbol symbol' isRelated => ?_)
        inductionHypothesis)
      simp only [(counterpart _ _ first).identity_same (counterpart _ _ isRelated)]

/-- A query finds the counterparts of what it found before. -/
theorem find
    (concreteOnly : Bool)
    (target : InterfaceName) :
    List.Forall₂ (Match.Related related)
      (Matching.find concreteOnly symbols target).1
      (Matching.find concreteOnly symbols' target).1 := by
  have named :
      List.Forall₂ related
        (Universe.interfacesNamed symbols target.display)
        (Universe.interfacesNamed symbols' target.display) := by
    refine List.rel_filter (fun symbol symbol' isRelated => ?_)
      (List.rel_filter (fun symbol symbol' isRelated => ?_) counterparts)
    · simp only [(counterpart _ _ isRelated).isInterface]
    · simp only [(counterpart _ _ isRelated).typeString]
  rw [Matching.find_fst, Matching.find_fst, List.forall₂_map_left_iff,
    List.forall₂_map_right_iff]
  refine (List.rel_filter (fun symbol symbol' isRelated => ?_)
    (firsts counterpart named)).imp fun interface interface' isInterface => ⟨isInterface, ?_⟩
  · simp only [(counterpart _ _ isRelated).isPartial]
  · refine List.rel_filter (fun symbol symbol' isRelated => ?_) (firsts counterpart counterparts)
    simp only [decide_eq_true_eq, ← Matching.implements_iff,
      (counterpart _ _ isInterface).implements concreteOnly (counterpart _ _ isRelated)]

end Transfer

/-! ## Nothing scanned -/

section NothingScanned

/-- Without scanned packages an owner stays as it is. -/
theorem Owner.localize_none
    (owner : Owner) :
    owner.localize (fun _ => none) = owner := by
  cases owner <;> rfl

mutual

/-- Without scanned packages a type stays as it is. -/
theorem Ty.localize_none : ∀ type : Ty, type.localize (fun _ => none) = type
  | .named owner name args => by
      rw [Ty.localize, owner.localize_none, Ty.localizeList_none args]
  | .pointer elem => congrArg _ elem.localize_none
  | .slice elem => congrArg _ elem.localize_none
  | .array _ elem => congrArg _ elem.localize_none
  | .map key value => by rw [Ty.localize, key.localize_none, value.localize_none]
  | .chan _ elem => congrArg _ elem.localize_none
  | .func signature => congrArg _ signature.localize_none
  | .struct fields => congrArg _ (StructField.localizeList_none fields)
  | .interface methods => congrArg _ methods.localize_none

/-- The same for the types of a list. -/
theorem Ty.localizeList_none : ∀ types : List Ty, Ty.localizeList (fun _ => none) types = types
  | [] => rfl
  | first :: rest => by
      rw [Ty.localizeList, first.localize_none, Ty.localizeList_none rest]

/-- The same for a signature. -/
theorem Signature.localize_none : ∀ signature : Signature,
    signature.localize (fun _ => none) = signature
  | .mk params results _ => by
      rw [Signature.localize, Ty.localizeList_none params, Ty.localizeList_none results]

/-- The same for the fields of a list. -/
theorem StructField.localizeList_none : ∀ fields : List StructField,
    StructField.localizeList (fun _ => none) fields = fields
  | [] => rfl
  | .mk _ type _ :: rest => by
      rw [StructField.localizeList, type.localize_none, StructField.localizeList_none rest]

/-- The same for the methods of a list. -/
theorem Method.localizeList_none : ∀ methods : List Method,
    Method.localizeList (fun _ => none) methods = methods
  | [] => rfl
  | .mk _ signature :: rest => by
      rw [Method.localizeList, signature.localize_none, Method.localizeList_none rest]

/-- The same for a method set. -/
theorem MethodSet.localize_none : ∀ methods : MethodSet,
    methods.localize (fun _ => none) = methods
  | .mk methods => congrArg _ (Method.localizeList_none methods)

end

/-- Where no unit has an import path, symbols stay as they are. -/
theorem ImportIndex.localize_of_outside
    {units : List SourceUnit}
    (outside : ∀ unit ∈ units, unit.importPath = none)
    (symbols : Universe) :
    (ofUnits units).localize symbols = symbols := by
  have noUnits : (ofUnits units).units = [] := by
    simp only [ofUnits, List.reverse_eq_nil_iff, List.filterMap_eq_nil_iff]
    intro unit member
    rw [outside unit member]
    rfl
  have noPackages : (ofUnits units).packages symbols = [] := by
    simp only [packages, List.filterMap_eq_nil_iff]
    intro symbol _
    simp [importable?, importPath?, noUnits]
  have nothing : scannedIn [] = fun _ => none := rfl
  have stays (symbol : Symbol) : symbol.localize (fun _ => none) = symbol := by
    rw [Symbol.localize, MethodSet.localize_none]
  simp only [localize, noPackages, nothing]
  exact (List.map_congr_left fun symbol _ => stays symbol).trans (List.map_id symbols)

end NothingScanned

/-! ## Packages in another order -/

/-- Packages of different names may be taken in any order: the symbols of each stay together. -/
theorem Universe.agree_of_perm
    {packages others : List PackageId}
    {symbolsOf : PackageId → List Symbol}
    (belong : ∀ package ∈ packages, ∀ symbol ∈ symbolsOf package, symbol.package = package)
    (distinct : (packages.map PackageId.name).Nodup)
    (perm : packages.Perm others) :
    Universe.Agree (packages.flatMap symbolsOf) (others.flatMap symbolsOf) := by
  intro key
  have alone (listed : List PackageId) (inside : ∀ package ∈ listed, package ∈ packages) :
      (listed.flatMap symbolsOf).filter (fun symbol => symbol.identity.same key) =
        ((listed.filter fun package => package.name == key.package.name).flatMap
          symbolsOf).filter fun symbol => symbol.identity.same key := by
    induction listed with
    | nil => rfl
    | cons package rest inductionHypothesis =>
        obtain ⟨isPackage, restInside⟩ := List.forall_mem_cons.mp inside
        rw [List.flatMap_cons, List.filter_append, inductionHypothesis restInside]
        cases sameName : package.name == key.package.name with
        | true => simp [sameName]
        | false =>
            have nothing :
                (symbolsOf package).filter (fun symbol => symbol.identity.same key) = [] := by
              refine List.filter_eq_nil_iff.mpr fun symbol member same => ?_
              have samePackage := (IdentityKey.same_iff.mp same).1
              rw [Symbol.identity, belong package isPackage symbol member] at samePackage
              exact absurd (PackageId.same_iff.mp samePackage).2 (by simpa using sameName)
            simp [sameName, nothing]
  have sameName :
      packages.filter (fun package => package.name == key.package.name) =
        others.filter fun package => package.name == key.package.name := by
    -- At most one package has the name, so there is only one order.
    have unordered (listed : List PackageId) : listed.Pairwise fun _ _ => True :=
      List.pairwise_of_forall fun _ _ => trivial
    refine List.Perm.eq_of_pairwise (fun left right inLeft inRight _ _ => ?_) (unordered _)
      (unordered _) (perm.filter _)
    obtain ⟨leftMember, leftName⟩ := List.mem_filter.mp inLeft
    obtain ⟨rightMember, rightName⟩ := List.mem_filter.mp inRight
    exact List.inj_on_of_nodup_map distinct leftMember (perm.mem_iff.mpr rightMember)
      ((eq_of_beq leftName).trans (eq_of_beq rightName).symm)
  rw [alone packages fun _ => id, alone others fun _ => perm.mem_iff.mpr, sameName]

end Implementers
