import Implementers.Symbol

namespace Implementers

/-!
# Identity keys are compared by an equivalence

Paths are compared by their components, packages by their path and name, method names by their text
and package, and identity keys by their package and the text of their type.  Each comparison is an
equivalence, so the symbols of a universe fall into entities.
-/

namespace Path

/-- Two paths are the same exactly when they have the same components. -/
theorem same_iff
    {left right : Path} :
    left.same right ↔ left.components = right.components := by
  simp [same]

end Path

namespace PackageId

/-- Two packages are the same exactly when their units and their names are. -/
theorem same_iff
    {left right : PackageId} :
    left.same right ↔
      left.unit.components = right.unit.components ∧ left.name = right.name := by
  simp [same, Path.same_iff]

/-- Every package is the same as itself. -/
@[simp] theorem same_self
    (package : PackageId) :
    package.same package := by
  simp [same_iff]

end PackageId

namespace MethodName

/-- Two method names are the same exactly when their texts and their packages, if any, are. -/
theorem same_iff
    {left right : MethodName} :
    left.same right ↔
      left.name = right.name ∧
        left.package.map (fun package => (package.unit.components, package.name)) =
          right.package.map fun package => (package.unit.components, package.name) := by
  obtain ⟨name, package⟩ := left
  obtain ⟨name', package'⟩ := right
  rcases package with _ | package <;> rcases package' with _ | package' <;>
    simp [same, PackageId.same_iff]

/-- Whether one method name is another does not depend on which of them is looked at first. -/
theorem same_comm
    (left right : MethodName) :
    left.same right = right.same left := by
  rw [Bool.eq_iff_iff, same_iff, same_iff]
  exact ⟨fun same => ⟨same.1.symm, same.2.symm⟩, fun same => ⟨same.1.symm, same.2.symm⟩⟩

/-- Whatever is the same as one of two same names is the same as the other. -/
theorem same_congr_right
    {left right : MethodName}
    (same : left.same right)
    (name : MethodName) :
    name.same left = name.same right := by
  rw [same_iff] at same
  rw [Bool.eq_iff_iff, same_iff, same_iff, same.1, same.2]

end MethodName

namespace IdentityKey

/-- Two keys are the same exactly when their packages and the texts of their types are. -/
theorem same_iff
    {left right : IdentityKey} :
    left.same right ↔
      left.package.same right.package ∧ left.type = right.type := by
  simp [same]

/-- Every key is the same as itself. -/
@[simp] theorem same_self
    (key : IdentityKey) :
    key.same key := by
  simp [same_iff]

/-- Sameness of keys goes both ways. -/
theorem same_comm
    (left right : IdentityKey) :
    left.same right = right.same left := by
  rw [Bool.eq_iff_iff, same_iff, same_iff, PackageId.same_iff, PackageId.same_iff]
  constructor <;>
    · rintro ⟨⟨unit, name⟩, type⟩
      exact ⟨⟨unit.symm, name.symm⟩, type.symm⟩

/-- Same keys are the same as the same keys. -/
theorem same_congr_left
    {left right : IdentityKey}
    (same : left.same right)
    (key : IdentityKey) :
    left.same key = right.same key := by
  rw [Bool.eq_iff_iff]
  simp only [same_iff, PackageId.same_iff] at same ⊢
  rw [same.1.1, same.1.2, same.2]

/-- Whatever is the same as one of two same keys is the same as the other. -/
theorem same_congr_right
    {left right : IdentityKey}
    (same : left.same right)
    (key : IdentityKey) :
    key.same left = key.same right := by
  rw [same_comm key left, same_comm key right, same_congr_left same]

end IdentityKey

end Implementers
