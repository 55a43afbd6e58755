import Implementers.Proofs.Query.Arrival
import Implementers.Proofs.TypeEquivalence

namespace Implementers

/-!
# Whoever implements an implementer

Satisfying is a preorder on method sets, and two sets satisfy each other exactly when they are the
same.  So an interface is implemented by whatever implements one of its implementers, although each
of the two queries lists the first symbol of an entity only and leaves out the interface it is about:
where symbols of one entity have the same methods, the first one speaks for all.
-/

namespace MethodSet

/-- A set that satisfies another one holds each of its methods. -/
theorem satisfies_iff_holds
    {set required : MethodSet}
    (distinct : set.Distinct) :
    set.satisfies required ↔
      ∀ method ∈ required.methods, set.Holds method.name method.signature := by
  simp only [satisfies, List.all_eq_true,
    Method.provides_iff (MethodSet.distinct_iff.mp distinct).1, Holds]

/-- A set is satisfied by every set that is the same. -/
theorem satisfies_of_same
    {set required : MethodSet}
    (same : set.same required) :
    set.satisfies required := by
  obtain ⟨methods⟩ := set
  obtain ⟨others⟩ := required
  simp only [MethodSet.same, Bool.and_eq_true] at same
  exact same.2

theorem satisfies_refl
    {set : MethodSet}
    (distinct : set.Distinct) :
    set.satisfies set :=
  satisfies_of_same (same_refl set distinct)

/-- A method that a set has to have is required under the same name by the set between. -/
theorem satisfies_trans
    {first second third : MethodSet}
    (one : first.satisfies second)
    (two : second.satisfies third) :
    first.satisfies third := by
  simp only [satisfies, List.all_eq_true] at one two ⊢
  intro method member
  obtain ⟨between, betweenMember, sameName, same⟩ :=
    Method.exists_of_provides (two method member)
  exact Method.provides_trans first.methods (one between betweenMember) sameName same

/-- Sets that satisfy each other have the same names, each once, so they are of one size. -/
theorem same_iff_satisfies
    {left right : MethodSet}
    (distinct : left.Distinct)
    (otherDistinct : right.Distinct) :
    left.same right ↔ left.satisfies right ∧ right.satisfies left := by
  constructor
  · intro same
    exact ⟨satisfies_of_same same,
      satisfies_of_same (same_symm left distinct otherDistinct same)⟩
  · rintro ⟨forth, back⟩
    rw [satisfies_iff_holds distinct] at forth
    rw [satisfies_iff_holds otherDistinct] at back
    refine (same_iff_stands distinct).mpr ⟨?_, forth⟩
    have sameKeys :=
      (List.perm_ext_iff_of_nodup (distinct_iff.mp distinct).1
        (distinct_iff.mp otherDistinct).1).mpr fun _ =>
          ⟨fun member => Method.keys_subset back member,
            fun member => Method.keys_subset forth member⟩
    simpa using sameKeys.length_eq

end MethodSet

namespace Matching

/-- Whether symbols of one entity have the same methods. -/
def Consistent
    (symbols : Universe) :
    Prop :=
  ∀ left ∈ symbols, ∀ right ∈ symbols,
    left.identity.same right.identity → left.methods.same right.methods

/-- What a row lists are the first symbols of their entities that count. -/
theorem mem_implementers_iff
    {concreteOnly : Bool}
    {symbols : Universe}
    {target : InterfaceName}
    {found : Match}
    (inFound : found ∈ (find concreteOnly symbols target).1)
    {candidate : Symbol} :
    candidate ∈ found.implementers ↔
      symbols.find? (fun first => first.identity.same candidate.identity) = some candidate ∧
        Implements concreteOnly found.interface candidate := by
  rw [find_fst] at inFound
  obtain ⟨interface, _, rfl⟩ := List.mem_map.mp inFound
  exact mem_row

/--
Satisfying is a preorder on method sets with at most one method for each name, and those that
satisfy each other are the same.  In a consistent universe, whatever is listed for an entity that is
itself listed for an interface is listed for this interface as well, unless it is the interface.
-/
theorem implementers_transitive :
    (∀ set : MethodSet, set.Distinct → set.satisfies set) ∧
      (∀ first second third : MethodSet,
        first.satisfies second → second.satisfies third → first.satisfies third) ∧
      (∀ left right : MethodSet, left.Distinct → right.Distinct →
        (left.satisfies right ∧ right.satisfies left ↔ left.same right)) ∧
      ∀ symbols : Universe, Consistent symbols →
        ∀ target, ∀ found ∈ (find false symbols target).1,
          ∀ middle ∈ found.implementers,
            ∀ inner, ∀ further ∈ (find false symbols inner).1,
              further.interface.identity.same middle.identity →
                ∀ candidate ∈ further.implementers,
                  ¬ candidate.identity.same found.interface.identity →
                    candidate ∈ found.implementers := by
  refine ⟨fun _ => MethodSet.satisfies_refl, fun _ _ _ => MethodSet.satisfies_trans,
    fun _ _ distinct otherDistinct =>
      (MethodSet.same_iff_satisfies distinct otherDistinct).symm, ?_⟩
  intro symbols consistent target found inFound middle listed inner further inFurther isMiddle
    candidate listedFurther other
  obtain ⟨isFirst, implements⟩ := (mem_implementers_iff inFound).mp listed
  obtain ⟨candidateFirst, implementsFurther⟩ := (mem_implementers_iff inFurther).mp listedFurther
  have sameMethods : further.interface.methods.same middle.methods :=
    consistent _ (interface_of_find inFurther) _ (List.mem_of_find?_eq_some isFirst) isMiddle
  have satisfies : candidate.methods.satisfies found.interface.methods :=
    MethodSet.satisfies_trans implementsFurther.satisfies <|
      MethodSet.satisfies_trans (MethodSet.satisfies_of_same sameMethods) implements.satisfies
  refine (mem_implementers_iff inFound).mpr ⟨candidateFirst, ?_⟩
  exact ⟨implementsFurther.complete, by simp, other, satisfies⟩

/-! ## A chain of interfaces -/

namespace Chain

/-- A symbol with methods that neither take nor give anything. -/
def symbol
    (name : String)
    (kind : SymbolKind)
    (methods : List String) :
    Symbol :=
  { name
    package := ⟨⟨"p"⟩, "p"⟩
    kind
    pointer := false
    position := ⟨⟨"p/p.go"⟩, 1, 1⟩
    declaration := ⟨⟨"p/p.go"⟩, 1, 1⟩
    methods := .mk (methods.map fun name => .mk ⟨name, none⟩ (.mk [] [] false))
    isPartial := false }

/-- Methods with different names are distinct. -/
theorem distinct_methods
    (name : String)
    (kind : SymbolKind)
    {methods : List String}
    (nodup : methods.Nodup) :
    (symbol name kind methods).methods.Distinct := by
  refine MethodSet.distinct_iff.mpr ⟨?_, ?_⟩
  · have keys :
        ((symbol name kind methods).methods.methods.map fun method => method.name.key) =
          methods.map fun name => (name, none) := by
      simp [symbol, MethodSet.methods, Method.name, MethodName.key, Function.comp_def]
    rw [keys]
    exact nodup.map fun _ _ same => (Prod.mk.inj same).1
  · simp [symbol, MethodSet.methods, Method.signature, Signature.Distinct, Ty.AllDistinct]

/-- An interface, another one with a method more in front, and a type with both methods. -/
def symbols : Universe :=
  [ symbol "File" .concrete ["Read", "Close"],
    symbol "ReadCloser" .interface ["Close", "Read"],
    symbol "Reader" .interface ["Read"]]

/-- The matches of an interface of the package. -/
def found
    (name : String) :
    List Match :=
  (find false symbols ⟨"p", name⟩).1

/-- The symbols with their methods differ in their names, so each is an entity of its own. -/
theorem consistent : Consistent symbols := by
  have each : ∀ left ∈ symbols, ∀ right ∈ symbols,
      (!left.identity.same right.identity || left.methods.same right.methods) = true := by
    decide +kernel
  intro left leftMember right rightMember same
  simpa [same] using each left leftMember right rightMember

/--
The type is listed for the longer interface, and so it is for the shorter one.  The type and the
longer interface satisfy each other, and so their methods are the same, in whatever order.
-/
theorem implementers_transitive_chain :
    ((symbol "File" .concrete ["Read", "Close"]).methods.Distinct ∧
        (symbol "ReadCloser" .interface ["Close", "Read"]).methods.Distinct ∧
        (symbol "File" .concrete ["Read", "Close"]).methods.same
          (symbol "ReadCloser" .interface ["Close", "Read"]).methods) ∧
    ∃ reader ∈ found "Reader", ∃ readCloser ∈ reader.implementers,
      ∃ further ∈ found "ReadCloser", further.interface.identity.same readCloser.identity ∧
        ∃ file ∈ further.implementers, ¬ file.identity.same reader.interface.identity ∧
          file.typeString = "p.File" ∧ file ∈ reader.implementers := by
  have shown :
      ((found "Reader").any fun reader =>
        reader.implementers.any fun readCloser =>
          (found "ReadCloser").any fun further =>
            further.interface.identity.same readCloser.identity &&
              further.implementers.any fun file =>
                !file.identity.same reader.interface.identity &&
                  file.typeString == "p.File") = true := by
    decide +kernel
  simp only [List.any_eq_true, Bool.and_eq_true, Bool.not_eq_true', beq_iff_eq] at shown
  obtain ⟨reader, inReader, readCloser, listed, further, inFurther, same, file, listedFurther,
    other, text⟩ := shown
  have different : ¬ file.identity.same reader.interface.identity := by simp [other]
  have distinct : (symbol "File" .concrete ["Read", "Close"]).methods.Distinct :=
    distinct_methods _ _ (by decide)
  have distinctOther : (symbol "ReadCloser" .interface ["Close", "Read"]).methods.Distinct :=
    distinct_methods _ _ (by decide)
  have sameMethods :=
    (implementers_transitive.2.2.1 _ _ distinct distinctOther).mp
      ⟨by decide +kernel, by decide +kernel⟩
  refine ⟨⟨distinct, distinctOther, sameMethods⟩, ?_⟩
  exact ⟨reader, inReader, readCloser, listed, further, inFurther, same, file, listedFurther,
    different, text,
    implementers_transitive.2.2.2 symbols consistent _ reader inReader readCloser listed _ further
      inFurther same file listedFurther different⟩

end Chain

end Matching

end Implementers
