import Implementers.Proofs.Identity
import Implementers.Ty.Identity

namespace Implementers

/-!
# Types that are identical to one another

What is identical to a type is identical to whatever that type is identical to.  For the methods of
interfaces this holds whatever their order, since a method is looked for under its name.
-/

namespace Owner

theorem same_trans
    {first second third : Owner}
    (one : first.same second)
    (two : second.same third) :
    first.same third := by
  cases first <;> cases second <;> simp only [same, Bool.false_eq_true, beq_iff_eq] at one <;>
    cases third <;> simp only [same, Bool.false_eq_true, beq_iff_eq] at two ⊢
  · rw [PackageId.same_iff] at one two ⊢
    exact ⟨one.1.trans two.1, one.2.trans two.2⟩
  · exact one.trans two

end Owner

namespace Method

/-- What is provided under a name and with a signature stands in the list. -/
theorem exists_of_provides
    {methods : List Method}
    {name : MethodName}
    {signature : Signature}
    (provided : provides methods name signature) :
    ∃ method ∈ methods, method.name.same name ∧ method.signature.same signature := by
  induction methods with
  | nil => simp [provides] at provided
  | cons method rest inductionHypothesis =>
      obtain ⟨own, ownSignature⟩ := method
      simp only [provides] at provided
      split at provided
      · next sameName => exact ⟨_, List.mem_cons_self, sameName, provided⟩
      · obtain ⟨other, member, same⟩ := inductionHypothesis provided
        exact ⟨other, List.mem_cons_of_mem _ member, same⟩

end Method

mutual

theorem Ty.same_trans :
    ∀ (first : Ty) {second third : Ty},
      first.same second → second.same third → first.same third
  | .named owner name args, second, third, one, two => by
      cases second <;> simp only [Ty.same, Bool.false_eq_true, Bool.and_eq_true, beq_iff_eq] at one
      cases third <;>
        simp only [Ty.same, Bool.false_eq_true, Bool.and_eq_true, beq_iff_eq] at two ⊢
      exact ⟨⟨Owner.same_trans one.1.1 two.1.1, one.1.2.trans two.1.2⟩,
        Ty.sameList_trans args one.2 two.2⟩
  | .pointer elem, second, third, one, two => by
      cases second <;> simp only [Ty.same, Bool.false_eq_true] at one
      cases third <;> simp only [Ty.same, Bool.false_eq_true] at two ⊢
      exact Ty.same_trans elem one two
  | .slice elem, second, third, one, two => by
      cases second <;> simp only [Ty.same, Bool.false_eq_true] at one
      cases third <;> simp only [Ty.same, Bool.false_eq_true] at two ⊢
      exact Ty.same_trans elem one two
  | .array length elem, second, third, one, two => by
      cases second <;> simp only [Ty.same, Bool.false_eq_true, Bool.and_eq_true, beq_iff_eq] at one
      cases third <;>
        simp only [Ty.same, Bool.false_eq_true, Bool.and_eq_true, beq_iff_eq] at two ⊢
      exact ⟨one.1.trans two.1, Ty.same_trans elem one.2 two.2⟩
  | .map key value, second, third, one, two => by
      cases second <;> simp only [Ty.same, Bool.false_eq_true, Bool.and_eq_true] at one
      cases third <;> simp only [Ty.same, Bool.false_eq_true, Bool.and_eq_true] at two ⊢
      exact ⟨Ty.same_trans key one.1 two.1, Ty.same_trans value one.2 two.2⟩
  | .chan direction elem, second, third, one, two => by
      cases second <;> simp only [Ty.same, Bool.false_eq_true, Bool.and_eq_true, beq_iff_eq] at one
      cases third <;>
        simp only [Ty.same, Bool.false_eq_true, Bool.and_eq_true, beq_iff_eq] at two ⊢
      exact ⟨one.1.trans two.1, Ty.same_trans elem one.2 two.2⟩
  | .func signature, second, third, one, two => by
      cases second <;> simp only [Ty.same, Bool.false_eq_true] at one
      cases third <;> simp only [Ty.same, Bool.false_eq_true] at two ⊢
      exact Signature.same_trans signature one two
  | .struct fields, second, third, one, two => by
      cases second <;> simp only [Ty.same, Bool.false_eq_true] at one
      cases third <;> simp only [Ty.same, Bool.false_eq_true] at two ⊢
      exact StructField.sameList_trans fields one two
  | .interface methods, second, third, one, two => by
      cases second <;> simp only [Ty.same, Bool.false_eq_true] at one
      cases third <;> simp only [Ty.same, Bool.false_eq_true] at two ⊢
      exact MethodSet.same_trans methods one two

theorem Ty.sameList_trans :
    ∀ (first : List Ty) {second third : List Ty},
      Ty.sameList first second → Ty.sameList second third → Ty.sameList first third
  | [], second, third, one, two => by
      cases second <;> simp only [Ty.sameList, Bool.false_eq_true] at one
      exact two
  | type :: rest, second, third, one, two => by
      cases second <;> simp only [Ty.sameList, Bool.false_eq_true, Bool.and_eq_true] at one
      cases third <;> simp only [Ty.sameList, Bool.false_eq_true, Bool.and_eq_true] at two ⊢
      exact ⟨Ty.same_trans type one.1 two.1, Ty.sameList_trans rest one.2 two.2⟩

theorem Signature.same_trans :
    ∀ (first : Signature) {second third : Signature},
      first.same second → second.same third → first.same third
  | .mk params results variadic, .mk _ _ _, .mk _ _ _, one, two => by
      simp only [Signature.same, Bool.and_eq_true, beq_iff_eq] at one two ⊢
      exact ⟨⟨Ty.sameList_trans params one.1.1 two.1.1, Ty.sameList_trans results one.1.2 two.1.2⟩,
        one.2.trans two.2⟩

theorem StructField.same_trans :
    ∀ (first : StructField) {second third : StructField},
      first.same second → second.same third → first.same third
  | .mk name type embedded, .mk _ _ _, .mk _ _ _, one, two => by
      simp only [StructField.same, Bool.and_eq_true, beq_iff_eq] at one two ⊢
      exact ⟨⟨one.1.1.trans two.1.1, Ty.same_trans type one.1.2 two.1.2⟩, one.2.trans two.2⟩

theorem StructField.sameList_trans :
    ∀ (first : List StructField) {second third : List StructField},
      StructField.sameList first second → StructField.sameList second third →
        StructField.sameList first third
  | [], second, third, one, two => by
      cases second <;> simp only [StructField.sameList, Bool.false_eq_true] at one
      exact two
  | field :: rest, second, third, one, two => by
      cases second <;> simp only [StructField.sameList, Bool.false_eq_true, Bool.and_eq_true] at one
      cases third <;>
        simp only [StructField.sameList, Bool.false_eq_true, Bool.and_eq_true] at two ⊢
      exact ⟨StructField.same_trans field one.1 two.1, StructField.sameList_trans rest one.2 two.2⟩

/-- A method is provided under a same name and with an identical signature as well. -/
theorem Method.provides_trans :
    ∀ (methods : List Method) {name other : MethodName} {signature otherSignature : Signature},
      Method.provides methods name signature → name.same other →
        signature.same otherSignature → Method.provides methods other otherSignature
  | [], _, _, _, _, provided, _, _ => by simp [Method.provides] at provided
  | .mk own ownSignature :: rest, name, other, signature, otherSignature, provided, sameName,
      same => by
      simp only [Method.provides, ← MethodName.same_congr_right sameName own] at provided ⊢
      split at provided
      · next isOwn =>
          rw [if_pos isOwn]
          exact Signature.same_trans ownSignature provided same
      · next isOther =>
          rw [if_neg isOther]
          exact Method.provides_trans rest provided sameName same

theorem MethodSet.same_trans :
    ∀ (first : MethodSet) {second third : MethodSet},
      first.same second → second.same third → first.same third
  | .mk methods, .mk _, .mk _, one, two => by
      simp only [MethodSet.same, Bool.and_eq_true, beq_iff_eq, List.all_eq_true] at one two ⊢
      refine ⟨one.1.trans two.1, fun method member => ?_⟩
      obtain ⟨between, betweenMember, sameName, same⟩ :=
        Method.exists_of_provides (two.2 method member)
      exact Method.provides_trans methods (one.2 between betweenMember) sameName same

end

end Implementers
