import Implementers.Proofs.TypeIdentity
import Mathlib.Data.List.Nodup
import Mathlib.Data.List.Perm.Subperm

namespace Implementers

/-!
# Type identity is an equivalence

A method set keeps at most one method for each name.  On types whose method sets do so at every
depth, identity is an equivalence, although the comparison of method sets looks only for the methods
of one of them in the other.  Two method sets are then identical exactly when they hold the same
methods, so a type stays the same when the methods of an interface anywhere inside it are reordered.
-/

namespace MethodName

/-- What two method names have in common exactly when they are the same. -/
def key
    (name : MethodName) :
    String × Option (List Component × String) :=
  (name.name, name.package.map fun package => (package.unit.components, package.name))

theorem same_iff_key
    {left right : MethodName} :
    left.same right ↔ left.key = right.key := by
  rw [same_iff, key, key, Prod.mk.injEq]

end MethodName

mutual

/-- Whether every method set inside a type has at most one method for each name. -/
def Ty.Distinct : Ty → Prop
  | .named _ _ args => Ty.AllDistinct args
  | .pointer elem => elem.Distinct
  | .slice elem => elem.Distinct
  | .array _ elem => elem.Distinct
  | .map key value => key.Distinct ∧ value.Distinct
  | .chan _ elem => elem.Distinct
  | .func signature => signature.Distinct
  | .struct fields => StructField.AllDistinct fields
  | .interface methods => methods.Distinct

/-- Whether every method set inside the types of a list has at most one method for each name. -/
def Ty.AllDistinct : List Ty → Prop
  | [] => True
  | first :: rest => first.Distinct ∧ Ty.AllDistinct rest

/-- Whether every method set inside a signature has at most one method for each name. -/
def Signature.Distinct : Signature → Prop
  | .mk params results _ => Ty.AllDistinct params ∧ Ty.AllDistinct results

/-- Whether every method set inside a field has at most one method for each name. -/
def StructField.Distinct : StructField → Prop
  | .mk _ type _ => type.Distinct

/-- Whether every method set inside the fields of a list has at most one method for each name. -/
def StructField.AllDistinct : List StructField → Prop
  | [] => True
  | first :: rest => first.Distinct ∧ StructField.AllDistinct rest

/-- Whether every method set inside a method has at most one method for each name. -/
def Method.Distinct : Method → Prop
  | .mk _ signature => signature.Distinct

/-- Whether every method set inside the methods of a list has at most one method for each name. -/
def Method.AllDistinct : List Method → Prop
  | [] => True
  | first :: rest => first.Distinct ∧ Method.AllDistinct rest

/-- Whether a method set and every one inside it has at most one method for each name. -/
def MethodSet.Distinct : MethodSet → Prop
  | .mk methods =>
      (methods.map fun method => method.name.key).Nodup ∧ Method.AllDistinct methods

end

theorem Ty.allDistinct_iff
    {types : List Ty} :
    Ty.AllDistinct types ↔ ∀ type ∈ types, type.Distinct := by
  induction types with
  | nil => simp [Ty.AllDistinct]
  | cons first rest inductionHypothesis => simp [Ty.AllDistinct, inductionHypothesis]

theorem StructField.allDistinct_iff
    {fields : List StructField} :
    StructField.AllDistinct fields ↔ ∀ field ∈ fields, field.Distinct := by
  induction fields with
  | nil => simp [StructField.AllDistinct]
  | cons first rest inductionHypothesis => simp [StructField.AllDistinct, inductionHypothesis]

theorem Method.allDistinct_iff
    {methods : List Method} :
    Method.AllDistinct methods ↔ ∀ method ∈ methods, method.Distinct := by
  induction methods with
  | nil => simp [Method.AllDistinct]
  | cons first rest inductionHypothesis => simp [Method.AllDistinct, inductionHypothesis]

theorem Method.distinct_iff
    {method : Method} :
    method.Distinct ↔ method.signature.Distinct := by
  cases method
  rfl

theorem MethodSet.distinct_iff
    {set : MethodSet} :
    set.Distinct ↔
      (set.methods.map fun method => method.name.key).Nodup ∧
        ∀ method ∈ set.methods, method.signature.Distinct := by
  obtain ⟨methods⟩ := set
  simp only [MethodSet.Distinct, Method.allDistinct_iff, Method.distinct_iff, MethodSet.methods]

/-! ## Methods of distinct names -/

namespace Method

/-- Whether a method of a name and with a signature stands in a list. -/
def Stands
    (methods : List Method)
    (name : MethodName)
    (signature : Signature) :
    Prop :=
  ∃ method ∈ methods, method.name.same name ∧ method.signature.same signature

/-- Where no name occurs twice, a method that stands in a list is found there under its name. -/
theorem provides_iff
    {methods : List Method}
    (nodup : (methods.map fun method => method.name.key).Nodup)
    {name : MethodName}
    {signature : Signature} :
    provides methods name signature ↔ Stands methods name signature := by
  refine ⟨exists_of_provides, ?_⟩
  rintro ⟨method, member, sameName, same⟩
  induction methods with
  | nil => cases member
  | cons first rest inductionHypothesis =>
      obtain ⟨own, ownSignature⟩ := first
      obtain ⟨apart, nodupRest⟩ := List.nodup_cons.mp nodup
      rcases List.mem_cons.mp member with rfl | later
      · rw [provides, if_pos (show own.same name from sameName)]
        exact same
      · have different : ¬ own.same name := by
          intro sameOwn
          rw [MethodName.same_iff_key] at sameOwn sameName
          exact apart (List.mem_map.mpr ⟨method, later, sameName.trans sameOwn.symm⟩)
        simpa only [provides, if_neg different] using inductionHypothesis nodupRest later

/-- The names of one list occur in the other when each of its methods is provided there. -/
theorem keys_subset
    {methods others : List Method}
    (provided : ∀ method ∈ others, Stands methods method.name method.signature) :
    (others.map fun method => method.name.key) ⊆ methods.map fun method => method.name.key := by
  intro key member
  obtain ⟨method, inOthers, rfl⟩ := List.mem_map.mp member
  obtain ⟨found, inMethods, sameName, _⟩ := provided method inOthers
  exact List.mem_map.mpr ⟨found, inMethods, MethodName.same_iff_key.mp sameName⟩

end Method

namespace MethodSet

/-- Two sets are identical when they are of one size and one holds every method of the other. -/
theorem same_iff_stands
    {left right : MethodSet}
    (distinct : left.Distinct) :
    left.same right ↔
      left.methods.length = right.methods.length ∧
        ∀ method ∈ right.methods, Method.Stands left.methods method.name method.signature := by
  obtain ⟨methods⟩ := left
  obtain ⟨others⟩ := right
  simp only [MethodSet.same, Bool.and_eq_true, beq_iff_eq, List.all_eq_true, MethodSet.methods,
    Method.provides_iff distinct.1]

end MethodSet

/-! ## Reflexivity -/

mutual

theorem Ty.same_refl :
    ∀ type : Ty, type.Distinct → type.same type
  | .named owner name args, distinct => by
      have sameOwner : owner.same owner := by cases owner <;> simp [Owner.same]
      simp [Ty.same, sameOwner, Ty.sameList_refl args distinct]
  | .pointer elem, distinct => by simpa only [Ty.same] using Ty.same_refl elem distinct
  | .slice elem, distinct => by simpa only [Ty.same] using Ty.same_refl elem distinct
  | .array length elem, distinct => by simpa [Ty.same] using Ty.same_refl elem distinct
  | .map key value, distinct => by
      simp [Ty.same, Ty.same_refl key distinct.1, Ty.same_refl value distinct.2]
  | .chan direction elem, distinct => by simpa [Ty.same] using Ty.same_refl elem distinct
  | .func signature, distinct => by
      simpa only [Ty.same] using Signature.same_refl signature distinct
  | .struct fields, distinct => by
      simpa only [Ty.same] using StructField.sameList_refl fields distinct
  | .interface methods, distinct => by
      simpa only [Ty.same] using MethodSet.same_refl methods distinct

theorem Ty.sameList_refl :
    ∀ types : List Ty, Ty.AllDistinct types → Ty.sameList types types
  | [], _ => rfl
  | first :: rest, distinct => by
      simp [Ty.sameList, Ty.same_refl first distinct.1, Ty.sameList_refl rest distinct.2]

theorem Signature.same_refl :
    ∀ signature : Signature, signature.Distinct → signature.same signature
  | .mk params results variadic, distinct => by
      simp [Signature.same, Ty.sameList_refl params distinct.1,
        Ty.sameList_refl results distinct.2]

theorem StructField.same_refl :
    ∀ field : StructField, field.Distinct → field.same field
  | .mk name type embedded, distinct => by
      simpa [StructField.same] using Ty.same_refl type distinct

theorem StructField.sameList_refl :
    ∀ fields : List StructField, StructField.AllDistinct fields → StructField.sameList fields fields
  | [], _ => rfl
  | first :: rest, distinct => by
      simp [StructField.sameList, StructField.same_refl first distinct.1,
        StructField.sameList_refl rest distinct.2]

/-- Every method of a list has a signature that is identical to itself. -/
theorem Method.signatures_refl :
    ∀ methods : List Method, Method.AllDistinct methods →
      ∀ method ∈ methods, method.signature.same method.signature
  | [], _, _, member => nomatch member
  | .mk name signature :: rest, distinct, method, member => by
      rcases List.mem_cons.mp member with rfl | later
      · exact Signature.same_refl signature distinct.1
      · exact Method.signatures_refl rest distinct.2 method later

theorem MethodSet.same_refl :
    ∀ set : MethodSet, set.Distinct → set.same set
  | .mk methods, distinct => by
      refine (MethodSet.same_iff_stands distinct).mpr ⟨rfl, fun method member => ?_⟩
      exact ⟨method, member, MethodName.same_iff_key.mpr rfl,
        Method.signatures_refl methods distinct.2 method member⟩

end

/-! ## Symmetry -/

theorem Owner.same_symm
    {left right : Owner}
    (same : left.same right) :
    right.same left := by
  cases left <;> cases right <;>
    simp only [Owner.same, Bool.false_eq_true, beq_iff_eq, PackageId.same_iff] at same ⊢
  · exact ⟨same.1.symm, same.2.symm⟩
  · exact same.symm

/--
If the methods of a set all stand in another one of the same size, then it is the other way round as
well: no name occurs twice in the set, so every name of the other one occurs in it.
-/
theorem MethodSet.same_symm_of
    {left right : MethodSet}
    (distinct : left.Distinct)
    (otherDistinct : right.Distinct)
    (symm :
      ∀ method ∈ left.methods, ∀ signature : Signature, signature.Distinct →
        method.signature.same signature → signature.same method.signature)
    (same : left.same right) :
    right.same left := by
  obtain ⟨size, provided⟩ := (same_iff_stands distinct).mp same
  refine (same_iff_stands otherDistinct).mpr ⟨size.symm, fun method member => ?_⟩
  obtain ⟨nodup, _⟩ := distinct_iff.mp distinct
  obtain ⟨otherNodup, signatures⟩ := distinct_iff.mp otherDistinct
  have covered :
      (left.methods.map fun method => method.name.key) ⊆
        right.methods.map fun method => method.name.key :=
    ((List.subperm_of_subset otherNodup (Method.keys_subset provided)).perm_of_length_le
      (by simp [size])).symm.subset
  obtain ⟨other, otherMember, sameKey⟩ :=
    List.mem_map.mp (covered (List.mem_map.mpr ⟨method, member, rfl⟩))
  obtain ⟨found, foundMember, sameName, sameSignature⟩ := provided other otherMember
  have isFound : found = method :=
    List.inj_on_of_nodup_map nodup foundMember member
      ((MethodName.same_iff_key.mp sameName).trans sameKey)
  subst isFound
  exact ⟨other, otherMember, MethodName.same_iff_key.mpr sameKey,
    symm found member other.signature (signatures other otherMember) sameSignature⟩

mutual

theorem Ty.same_symm :
    ∀ left : Ty, left.Distinct → ∀ {right : Ty}, right.Distinct →
      left.same right → right.same left
  | .named owner name args, distinct, right, otherDistinct, same => by
      cases right <;> simp only [Ty.same, Bool.false_eq_true, Bool.and_eq_true, beq_iff_eq] at same ⊢
      exact ⟨⟨Owner.same_symm same.1.1, same.1.2.symm⟩,
        Ty.sameList_symm args distinct otherDistinct same.2⟩
  | .pointer elem, distinct, right, otherDistinct, same => by
      cases right <;> simp only [Ty.same, Bool.false_eq_true] at same ⊢
      exact Ty.same_symm elem distinct otherDistinct same
  | .slice elem, distinct, right, otherDistinct, same => by
      cases right <;> simp only [Ty.same, Bool.false_eq_true] at same ⊢
      exact Ty.same_symm elem distinct otherDistinct same
  | .array length elem, distinct, right, otherDistinct, same => by
      cases right <;> simp only [Ty.same, Bool.false_eq_true, Bool.and_eq_true, beq_iff_eq] at same ⊢
      exact ⟨same.1.symm, Ty.same_symm elem distinct otherDistinct same.2⟩
  | .map key value, distinct, right, otherDistinct, same => by
      cases right <;> simp only [Ty.same, Bool.false_eq_true, Bool.and_eq_true] at same ⊢
      exact ⟨Ty.same_symm key distinct.1 otherDistinct.1 same.1,
        Ty.same_symm value distinct.2 otherDistinct.2 same.2⟩
  | .chan direction elem, distinct, right, otherDistinct, same => by
      cases right <;> simp only [Ty.same, Bool.false_eq_true, Bool.and_eq_true, beq_iff_eq] at same ⊢
      exact ⟨same.1.symm, Ty.same_symm elem distinct otherDistinct same.2⟩
  | .func signature, distinct, right, otherDistinct, same => by
      cases right <;> simp only [Ty.same, Bool.false_eq_true] at same ⊢
      exact Signature.same_symm signature distinct otherDistinct same
  | .struct fields, distinct, right, otherDistinct, same => by
      cases right <;> simp only [Ty.same, Bool.false_eq_true] at same ⊢
      exact StructField.sameList_symm fields distinct otherDistinct same
  | .interface methods, distinct, right, otherDistinct, same => by
      cases right <;> simp only [Ty.same, Bool.false_eq_true] at same ⊢
      exact MethodSet.same_symm methods distinct otherDistinct same

theorem Ty.sameList_symm :
    ∀ left : List Ty, Ty.AllDistinct left → ∀ {right : List Ty}, Ty.AllDistinct right →
      Ty.sameList left right → Ty.sameList right left
  | [], _, right, _, same => by cases right <;> simp only [Ty.sameList, Bool.false_eq_true] at same ⊢
  | type :: rest, distinct, right, otherDistinct, same => by
      cases right <;> simp only [Ty.sameList, Bool.false_eq_true, Bool.and_eq_true] at same ⊢
      exact ⟨Ty.same_symm type distinct.1 otherDistinct.1 same.1,
        Ty.sameList_symm rest distinct.2 otherDistinct.2 same.2⟩

theorem Signature.same_symm :
    ∀ left : Signature, left.Distinct → ∀ {right : Signature}, right.Distinct →
      left.same right → right.same left
  | .mk params results variadic, distinct, .mk _ _ _, otherDistinct, same => by
      simp only [Signature.same, Bool.and_eq_true, beq_iff_eq] at same ⊢
      exact ⟨⟨Ty.sameList_symm params distinct.1 otherDistinct.1 same.1.1,
        Ty.sameList_symm results distinct.2 otherDistinct.2 same.1.2⟩, same.2.symm⟩

theorem StructField.same_symm :
    ∀ left : StructField, left.Distinct → ∀ {right : StructField}, right.Distinct →
      left.same right → right.same left
  | .mk name type embedded, distinct, .mk _ _ _, otherDistinct, same => by
      simp only [StructField.same, Bool.and_eq_true, beq_iff_eq] at same ⊢
      exact ⟨⟨same.1.1.symm, Ty.same_symm type distinct otherDistinct same.1.2⟩, same.2.symm⟩

theorem StructField.sameList_symm :
    ∀ left : List StructField, StructField.AllDistinct left →
      ∀ {right : List StructField}, StructField.AllDistinct right →
        StructField.sameList left right → StructField.sameList right left
  | [], _, right, _, same => by
      cases right <;> simp only [StructField.sameList, Bool.false_eq_true] at same ⊢
  | field :: rest, distinct, right, otherDistinct, same => by
      cases right <;> simp only [StructField.sameList, Bool.false_eq_true, Bool.and_eq_true] at same ⊢
      exact ⟨StructField.same_symm field distinct.1 otherDistinct.1 same.1,
        StructField.sameList_symm rest distinct.2 otherDistinct.2 same.2⟩

/-- What a signature of a method in a list is identical to is identical to it. -/
theorem Method.signatures_symm :
    ∀ methods : List Method, Method.AllDistinct methods →
      ∀ method ∈ methods, ∀ signature : Signature, signature.Distinct →
        method.signature.same signature → signature.same method.signature
  | [], _, _, member, _, _, _ => nomatch member
  | .mk name own :: rest, distinct, method, member, signature, otherDistinct, same => by
      rcases List.mem_cons.mp member with rfl | later
      · exact Signature.same_symm own distinct.1 otherDistinct same
      · exact Method.signatures_symm rest distinct.2 method later signature otherDistinct same

theorem MethodSet.same_symm :
    ∀ left : MethodSet, left.Distinct → ∀ {right : MethodSet}, right.Distinct →
      left.same right → right.same left
  | .mk methods, distinct, _, otherDistinct, same =>
      MethodSet.same_symm_of distinct otherDistinct
        (Method.signatures_symm methods distinct.2) same

end

/-! ## Equivalence -/

/-- A comparison of well-formed values that is reflexive, symmetric and transitive. -/
structure Lawful
    (wellFormed : α → Prop)
    (same : α → α → Bool) :
    Prop where
  refl : ∀ value, wellFormed value → same value value
  symm :
    ∀ left right, wellFormed left → wellFormed right → same left right → same right left
  trans :
    ∀ first second third, wellFormed first → wellFormed second → wellFormed third →
      same first second → same second third → same first third

theorem Ty.lawful : Lawful Ty.Distinct Ty.same where
  refl := Ty.same_refl
  symm left _ distinct otherDistinct := Ty.same_symm left distinct otherDistinct
  trans first _ _ _ _ _ := Ty.same_trans first

theorem Signature.lawful : Lawful Signature.Distinct Signature.same where
  refl := Signature.same_refl
  symm left _ distinct otherDistinct := Signature.same_symm left distinct otherDistinct
  trans first _ _ _ _ _ := Signature.same_trans first

theorem StructField.lawful : Lawful StructField.Distinct StructField.same where
  refl := StructField.same_refl
  symm left _ distinct otherDistinct := StructField.same_symm left distinct otherDistinct
  trans first _ _ _ _ _ := StructField.same_trans first

theorem MethodSet.lawful : Lawful MethodSet.Distinct MethodSet.same where
  refl := MethodSet.same_refl
  symm left _ distinct otherDistinct := MethodSet.same_symm left distinct otherDistinct
  trans first _ _ _ _ _ := MethodSet.same_trans first

namespace MethodSet

/-- Whether a set holds a method of a name and with a signature, up to identity. -/
def Holds
    (set : MethodSet)
    (name : MethodName)
    (signature : Signature) :
    Prop :=
  Method.Stands set.methods name signature

/-- Whatever stands in one of two identical sets stands in the other. -/
theorem holds_of_same
    {left right : MethodSet}
    (distinct : left.Distinct)
    (same : left.same right)
    {name : MethodName}
    {signature : Signature}
    (holds : right.Holds name signature) :
    left.Holds name signature := by
  obtain ⟨method, member, sameName, sameSignature⟩ := holds
  obtain ⟨found, foundMember, foundName, foundSignature⟩ :=
    ((same_iff_stands distinct).mp same).2 method member
  refine ⟨found, foundMember, ?_, Signature.same_trans _ foundSignature sameSignature⟩
  rw [MethodName.same_iff_key] at foundName sameName ⊢
  exact foundName.trans sameName

/-- Two sets are identical exactly when they hold the same methods, in whatever order. -/
theorem same_iff_holds
    {left right : MethodSet}
    (distinct : left.Distinct)
    (otherDistinct : right.Distinct) :
    left.same right ↔
      ∀ name signature, left.Holds name signature ↔ right.Holds name signature := by
  constructor
  · intro same name signature
    exact ⟨holds_of_same otherDistinct (same_symm left distinct otherDistinct same),
      holds_of_same distinct same⟩
  · intro agree
    have own (set : MethodSet) (wellFormed : set.Distinct) :
        ∀ method ∈ set.methods, set.Holds method.name method.signature := fun method member =>
      ⟨method, member, MethodName.same_iff_key.mpr rfl,
        Signature.same_refl _ ((distinct_iff.mp wellFormed).2 method member)⟩
    have provided : ∀ method ∈ right.methods, left.Holds method.name method.signature :=
      fun method member => (agree _ _).mpr (own right otherDistinct method member)
    have providedBack : ∀ method ∈ left.methods, right.Holds method.name method.signature :=
      fun method member => (agree _ _).mp (own left distinct method member)
    refine (same_iff_stands distinct).mpr ⟨?_, provided⟩
    have sameKeys :=
      (List.perm_ext_iff_of_nodup (distinct_iff.mp distinct).1
        (distinct_iff.mp otherDistinct).1).mpr fun _ =>
          ⟨fun member => Method.keys_subset providedBack member,
            fun member => Method.keys_subset provided member⟩
    simpa using sameKeys.length_eq

/-- A set and the same methods in another order are identical. -/
theorem same_of_perm
    {methods others : List Method}
    (distinct : (MethodSet.mk methods).Distinct)
    (perm : methods.Perm others) :
    (MethodSet.mk methods).same (.mk others) := by
  refine (same_iff_stands distinct).mpr ⟨perm.length_eq, fun method member => ?_⟩
  have isMember : method ∈ methods := perm.mem_iff.mpr member
  exact ⟨method, isMember, MethodName.same_iff_key.mpr rfl,
    Signature.same_refl _ ((distinct_iff.mp distinct).2 method isMember)⟩

/-- Replacing a signature changes no name. -/
theorem keys_replaceIn
    (name : MethodName)
    (signature : Signature)
    (methods : List Method) :
    (replaceIn name signature methods).map (fun method => method.name.key) =
      methods.map fun method => method.name.key := by
  induction methods with
  | nil => rfl
  | cons first rest inductionHypothesis =>
      rw [replaceIn]
      split
      · rfl
      · rw [List.map_cons, List.map_cons, inductionHypothesis]

/-- After a signature is replaced, every signature is an old one or the new one. -/
theorem signature_of_mem_replaceIn
    {name : MethodName}
    {signature : Signature}
    {methods : List Method}
    {method : Method}
    (member : method ∈ replaceIn name signature methods) :
    (∃ old ∈ methods, method.signature = old.signature) ∨ method.signature = signature := by
  induction methods with
  | nil => cases member
  | cons first rest inductionHypothesis =>
      rw [replaceIn] at member
      split at member
      · rcases List.mem_cons.mp member with rfl | later
        · exact .inr rfl
        · exact .inl ⟨method, List.mem_cons_of_mem _ later, rfl⟩
      · rcases List.mem_cons.mp member with rfl | later
        · exact .inl ⟨method, List.mem_cons_self, rfl⟩
        · exact (inductionHypothesis later).imp_left fun ⟨old, inRest, same⟩ =>
            ⟨old, List.mem_cons_of_mem _ inRest, same⟩

/-- A set stays distinct when a method is put into it, be its name new or not. -/
theorem distinct_insert
    {set : MethodSet}
    {signature : Signature}
    (distinct : set.Distinct)
    (wellFormed : signature.Distinct)
    (name : MethodName) :
    (set.insert name signature).Distinct := by
  obtain ⟨nodup, signatures⟩ := distinct_iff.mp distinct
  rw [insert]
  split
  · refine distinct_iff.mpr ⟨(keys_replaceIn name signature set.methods).symm ▸ nodup, ?_⟩
    intro method member
    rcases signature_of_mem_replaceIn member with ⟨old, inSet, same⟩ | new
    · exact same ▸ signatures old inSet
    · exact new ▸ wellFormed
  · next absent =>
      refine distinct_iff.mpr ⟨?_, ?_⟩
      · have fresh : name.key ∉ set.methods.map fun method => method.name.key := by
          intro member
          obtain ⟨method, inSet, same⟩ := List.mem_map.mp member
          refine absent (List.find?_isSome.mpr ⟨method, inSet, ?_⟩)
          exact MethodName.same_iff_key.mpr same
        simpa [MethodSet.methods, Method.name, List.nodup_append] using
          ⟨nodup, fun method inSet same => fresh (List.mem_map.mpr ⟨method, inSet, same⟩)⟩
      · intro method member
        rcases List.mem_append.mp member with old | new
        · exact signatures method old
        · rw [List.mem_singleton.mp new]
          exact wellFormed

end MethodSet

/-! ## Types inside types -/

/-- A type with another one in the place of one of the types inside it. -/
inductive Ty.Exchanged
    (old new : Ty) :
    Ty → Ty → Prop where
  | here : Exchanged old new old new
  | argument
      {left right : Ty}
      (owner : Owner)
      (name : String)
      (before after : List Ty)
      (inside : Exchanged old new left right) :
      Exchanged old new
        (.named owner name (before ++ left :: after))
        (.named owner name (before ++ right :: after))
  | pointer
      {left right : Ty}
      (inside : Exchanged old new left right) :
      Exchanged old new (.pointer left) (.pointer right)
  | slice
      {left right : Ty}
      (inside : Exchanged old new left right) :
      Exchanged old new (.slice left) (.slice right)
  | array
      {left right : Ty}
      (length : String)
      (inside : Exchanged old new left right) :
      Exchanged old new (.array length left) (.array length right)
  | key
      {left right : Ty}
      (value : Ty)
      (inside : Exchanged old new left right) :
      Exchanged old new (.map left value) (.map right value)
  | value
      {left right : Ty}
      (key : Ty)
      (inside : Exchanged old new left right) :
      Exchanged old new (.map key left) (.map key right)
  | chan
      {left right : Ty}
      (direction : Syntax.ChanDirection)
      (inside : Exchanged old new left right) :
      Exchanged old new (.chan direction left) (.chan direction right)
  | param
      {left right : Ty}
      (before after results : List Ty)
      (variadic : Bool)
      (inside : Exchanged old new left right) :
      Exchanged old new
        (.func (.mk (before ++ left :: after) results variadic))
        (.func (.mk (before ++ right :: after) results variadic))
  | result
      {left right : Ty}
      (params before after : List Ty)
      (variadic : Bool)
      (inside : Exchanged old new left right) :
      Exchanged old new
        (.func (.mk params (before ++ left :: after) variadic))
        (.func (.mk params (before ++ right :: after) variadic))
  | field
      {left right : Ty}
      (name : String)
      (embedded : Bool)
      (before after : List StructField)
      (inside : Exchanged old new left right) :
      Exchanged old new
        (.struct (before ++ .mk name left embedded :: after))
        (.struct (before ++ .mk name right embedded :: after))
  | method
      {left right : Signature}
      (name : MethodName)
      (before after : List Method)
      (inside : Exchanged old new (.func left) (.func right)) :
      Exchanged old new
        (.interface (.mk (before ++ .mk name left :: after)))
        (.interface (.mk (before ++ .mk name right :: after)))

namespace Ty

/-- Lists are identical when they differ in one type by an identical one. -/
theorem sameList_append
    {left right : Ty}
    (before after : List Ty)
    (distinct : AllDistinct (before ++ left :: after))
    (same : left.same right) :
    sameList (before ++ left :: after) (before ++ right :: after) := by
  induction before with
  | nil => simp [sameList, same, sameList_refl after distinct.2]
  | cons first rest inductionHypothesis =>
      simp [sameList, same_refl first distinct.1, inductionHypothesis distinct.2]

end Ty

/-- Fields are identical when one of them differs by an identical type. -/
theorem StructField.sameList_append
    {left right : Ty}
    (name : String)
    (embedded : Bool)
    (before after : List StructField)
    (distinct : AllDistinct (before ++ .mk name left embedded :: after))
    (same : left.same right) :
    sameList (before ++ .mk name left embedded :: after)
      (before ++ .mk name right embedded :: after) := by
  induction before with
  | nil => simp [sameList, StructField.same, same, sameList_refl after distinct.2]
  | cons first rest inductionHypothesis =>
      simp [sameList, same_refl first distinct.1, inductionHypothesis distinct.2]

/-- Method sets are identical when one of their methods differs by an identical signature. -/
theorem MethodSet.same_append
    {left right : Signature}
    (name : MethodName)
    (before after : List Method)
    (distinct : (MethodSet.mk (before ++ .mk name left :: after)).Distinct)
    (same : left.same right) :
    (MethodSet.mk (before ++ .mk name left :: after)).same
      (.mk (before ++ .mk name right :: after)) := by
  refine (same_iff_stands distinct).mpr ⟨by simp [MethodSet.methods], fun method member => ?_⟩
  have stays (isMember : method ∈ before ++ .mk name left :: after) :
      Method.Stands (before ++ .mk name left :: after) method.name method.signature :=
    ⟨method, isMember, MethodName.same_iff_key.mpr rfl,
      Signature.same_refl _ ((distinct_iff.mp distinct).2 method isMember)⟩
  rcases List.mem_append.mp member with earlier | here
  · exact stays (List.mem_append_left _ earlier)
  · rcases List.mem_cons.mp here with rfl | later
    · exact ⟨.mk name left, List.mem_append_right _ List.mem_cons_self,
        MethodName.same_iff_key.mpr rfl, same⟩
    · exact stays (List.mem_append_right _ (List.mem_cons_of_mem _ later))

/-- A type stays the same when a type anywhere inside it is exchanged for an identical one. -/
theorem Ty.Exchanged.same
    {old new left right : Ty}
    (exchanged : Exchanged old new left right)
    (identical : old.Distinct → old.same new)
    (distinct : left.Distinct) :
    left.same right := by
  induction exchanged with
  | here => exact identical distinct
  | argument owner name before after _ inductionHypothesis =>
      have inside : Ty.Distinct _ :=
        Ty.allDistinct_iff.mp distinct _ (List.mem_append_right _ List.mem_cons_self)
      have sameOwner : owner.same owner := by cases owner <;> simp [Owner.same]
      simp [Ty.same, sameOwner, Ty.sameList_append before after distinct (inductionHypothesis inside)]
  | pointer _ inductionHypothesis => simpa only [Ty.same] using inductionHypothesis distinct
  | slice _ inductionHypothesis => simpa only [Ty.same] using inductionHypothesis distinct
  | array _ _ inductionHypothesis => simpa [Ty.same] using inductionHypothesis distinct
  | key value _ inductionHypothesis =>
      simp [Ty.same, inductionHypothesis distinct.1, Ty.same_refl value distinct.2]
  | value key _ inductionHypothesis =>
      simp [Ty.same, Ty.same_refl key distinct.1, inductionHypothesis distinct.2]
  | chan _ _ inductionHypothesis => simpa [Ty.same] using inductionHypothesis distinct
  | param before after results variadic _ inductionHypothesis =>
      have inside : Ty.Distinct _ :=
        Ty.allDistinct_iff.mp distinct.1 _ (List.mem_append_right _ List.mem_cons_self)
      simp [Ty.same, Signature.same, Ty.sameList_refl results distinct.2,
        Ty.sameList_append before after distinct.1 (inductionHypothesis inside)]
  | result params before after variadic _ inductionHypothesis =>
      have inside : Ty.Distinct _ :=
        Ty.allDistinct_iff.mp distinct.2 _ (List.mem_append_right _ List.mem_cons_self)
      simp [Ty.same, Signature.same, Ty.sameList_refl params distinct.1,
        Ty.sameList_append before after distinct.2 (inductionHypothesis inside)]
  | field name embedded before after _ inductionHypothesis =>
      have inside : Ty.Distinct _ :=
        StructField.allDistinct_iff.mp distinct (.mk name _ embedded)
          (List.mem_append_right _ List.mem_cons_self)
      simpa only [Ty.same] using
        StructField.sameList_append name embedded before after distinct
          (inductionHypothesis inside)
  | method name before after _ inductionHypothesis =>
      have inside : Signature.Distinct _ :=
        (MethodSet.distinct_iff.mp distinct).2 (.mk name _)
          (List.mem_append_right _ List.mem_cons_self)
      have same := inductionHypothesis inside
      simp only [Ty.same] at same ⊢
      exact MethodSet.same_append name before after distinct same

/--
On types, signatures, fields and method sets whose method sets, at any depth, have at most one
method for each name, identity is reflexive, symmetric and transitive.  Two such method sets are
identical exactly when they hold the same methods, and a type stays the same when the methods of an
interface anywhere inside it are put into another order.
-/
theorem same_equivalence :
    Lawful Ty.Distinct Ty.same ∧ Lawful Signature.Distinct Signature.same ∧
      Lawful StructField.Distinct StructField.same ∧ Lawful MethodSet.Distinct MethodSet.same ∧
      (∀ left right : MethodSet, left.Distinct → right.Distinct →
        (left.same right ↔
          ∀ name signature, left.Holds name signature ↔ right.Holds name signature)) ∧
      ∀ (methods others : List Method) (left right : Ty), left.Distinct →
        methods.Perm others →
        Ty.Exchanged (.interface (.mk methods)) (.interface (.mk others)) left right →
          left.same right := by
  refine ⟨Ty.lawful, Signature.lawful, StructField.lawful, MethodSet.lawful,
    fun _ _ => MethodSet.same_iff_holds, ?_⟩
  intro methods others left right distinct perm exchanged
  refine exchanged.same (fun inside => ?_) distinct
  simpa only [Ty.same] using MethodSet.same_of_perm inside perm

namespace Reordered

/-- A method without parameters and results. -/
def method
    (name : String) :
    Method :=
  .mk (.inPackage ⟨⟨"p"⟩, "p"⟩ name) (.mk [] [] false)

/-- A function that takes a map to interfaces with the given methods. -/
def taking
    (methods : List Method) :
    Ty :=
  .func (.mk [.predeclared "int", .map (.predeclared "string") (.interface (.mk methods))] [] false)

/-- An interface literal inside a map inside a function, with two methods that change places. -/
theorem same_equivalence_nested :
    (taking [method "Read", method "close"]).Distinct ∧
      (taking [method "Read", method "close"]).same (taking [method "close", method "Read"]) := by
  have distinct : (taking [method "Read", method "close"]).Distinct := by
    have apart : (method "Read").name.key ≠ (method "close").name.key := by decide
    simpa [taking, Ty.Distinct, Signature.Distinct, Ty.AllDistinct, MethodSet.Distinct,
      Method.AllDistinct, Ty.predeclared, method, Method.Distinct] using apart
  exact ⟨distinct,
    same_equivalence.2.2.2.2.2 _ _ _ _ distinct (List.Perm.swap _ _ _)
      (.param [_] [] [] false (.value _ .here))⟩

end Reordered

end Implementers
