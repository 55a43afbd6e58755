import Implementers.Symbol

namespace Implementers

/-!
# Packages under other identities

A renaming gives packages other units but leaves their names as they are and tells apart what was
told apart before.  It reaches every place where a type or a method set mentions a package: the
owners of named types and the unexported method names.  Identity of types, lookup, insertion and
satisfaction of method sets are the same under new identities as under the old ones.
-/

/-- New identities of packages, which are the same exactly when the old ones are. -/
structure Renaming where
  package : PackageId → PackageId
  name : ∀ before, (package before).name = before.name
  same : ∀ left right, (package left).same (package right) = left.same right

namespace Renaming

/-- The renaming that leaves every package as it is. -/
def keep : Renaming :=
  ⟨id, fun _ => rfl, fun _ _ => rfl⟩

end Renaming

/-- An owner under its new identity. -/
def Owner.renamed
    (rename : Renaming) :
    Owner → Owner
  | .local package => .local (rename.package package)
  | owner => owner

/-- A method name in the package's new identity. -/
def MethodName.renamed
    (rename : Renaming)
    (method : MethodName) :
    MethodName :=
  { method with package := method.package.map rename.package }

mutual

/-- A type whose packages have new identities. -/
def Ty.renamed
    (rename : Renaming) :
    Ty → Ty
  | .named owner name args => .named (owner.renamed rename) name (Ty.listRenamed rename args)
  | .pointer elem => .pointer (elem.renamed rename)
  | .slice elem => .slice (elem.renamed rename)
  | .array length elem => .array length (elem.renamed rename)
  | .map key value => .map (key.renamed rename) (value.renamed rename)
  | .chan direction elem => .chan direction (elem.renamed rename)
  | .func signature => .func (signature.renamed rename)
  | .struct fields => .struct (StructField.listRenamed rename fields)
  | .interface methods => .interface (methods.renamed rename)

/-- Types whose packages have new identities. -/
def Ty.listRenamed
    (rename : Renaming) :
    List Ty → List Ty
  | [] => []
  | first :: rest => first.renamed rename :: Ty.listRenamed rename rest

/-- A signature whose packages have new identities. -/
def Signature.renamed
    (rename : Renaming) :
    Signature → Signature
  | .mk params results variadic =>
      .mk (Ty.listRenamed rename params) (Ty.listRenamed rename results) variadic

/-- Fields whose packages have new identities. -/
def StructField.listRenamed
    (rename : Renaming) :
    List StructField → List StructField
  | [] => []
  | .mk name type embedded :: rest =>
      .mk name (type.renamed rename) embedded :: StructField.listRenamed rename rest

/-- Methods whose packages have new identities. -/
def Method.listRenamed
    (rename : Renaming) :
    List Method → List Method
  | [] => []
  | .mk name signature :: rest =>
      .mk (name.renamed rename) (signature.renamed rename) :: Method.listRenamed rename rest

/-- A method set whose packages have new identities. -/
def MethodSet.renamed
    (rename : Renaming) :
    MethodSet → MethodSet
  | .mk methods => .mk (Method.listRenamed rename methods)

end

/-- A field whose packages have new identities. -/
def StructField.renamed
    (rename : Renaming) :
    StructField → StructField
  | .mk name type embedded => .mk name (type.renamed rename) embedded

/-- A method whose packages have new identities. -/
def Method.renamed
    (rename : Renaming) :
    Method → Method
  | .mk name signature => .mk (name.renamed rename) (signature.renamed rename)

section Lists

variable (rename : Renaming)

/-- Types of a list are renamed one by one. -/
theorem Ty.listRenamed_eq_map
    (types : List Ty) :
    Ty.listRenamed rename types = types.map (Ty.renamed rename) := by
  induction types with
  | nil => rfl
  | cons type rest inductionHypothesis =>
      simp only [Ty.listRenamed, inductionHypothesis, List.map_cons]

/-- Fields of a list are renamed one by one. -/
theorem StructField.listRenamed_eq_map
    (fields : List StructField) :
    StructField.listRenamed rename fields = fields.map (StructField.renamed rename) := by
  induction fields with
  | nil => rfl
  | cons field rest inductionHypothesis =>
      cases field
      simp only [StructField.listRenamed, inductionHypothesis, List.map_cons, StructField.renamed]

/-- Methods of a list are renamed one by one. -/
theorem Method.listRenamed_eq_map
    (methods : List Method) :
    Method.listRenamed rename methods = methods.map (Method.renamed rename) := by
  induction methods with
  | nil => rfl
  | cons method rest inductionHypothesis =>
      cases method
      simp only [Method.listRenamed, inductionHypothesis, List.map_cons, Method.renamed]

@[simp] theorem Method.renamed_name
    (method : Method) :
    (method.renamed rename).name = method.name.renamed rename := by
  cases method
  rfl

@[simp] theorem Method.renamed_signature
    (method : Method) :
    (method.renamed rename).signature = method.signature.renamed rename := by
  cases method
  rfl

@[simp] theorem MethodName.renamed_name
    (method : MethodName) :
    (method.renamed rename).name = method.name :=
  rfl

@[simp] theorem MethodSet.renamed_methods
    (set : MethodSet) :
    (set.renamed rename).methods = set.methods.map (Method.renamed rename) := by
  cases set
  exact Method.listRenamed_eq_map rename _

@[simp] theorem MethodSet.renamed_empty :
    MethodSet.empty.renamed rename = .empty :=
  rfl

end Lists

/-! ## Identity -/

section Identity

variable (rename : Renaming)

/-- Owners are the same under new identities exactly when they were before. -/
@[simp] theorem Owner.renamed_same
    (left right : Owner) :
    (left.renamed rename).same (right.renamed rename) = left.same right := by
  cases left <;> cases right <;> simp [Owner.renamed, Owner.same, rename.same]

/-- Method names are the same under new identities exactly when they were before. -/
@[simp] theorem MethodName.renamed_same
    (left right : MethodName) :
    (left.renamed rename).same (right.renamed rename) = left.same right := by
  obtain ⟨leftName, leftPackage⟩ := left
  obtain ⟨rightName, rightPackage⟩ := right
  cases leftPackage <;> cases rightPackage <;>
    simp [MethodName.renamed, MethodName.same, rename.same]

/-- The method name that a name stands for in a package under its new identity. -/
theorem MethodName.renamed_inPackage
    (package : PackageId)
    (name : String) :
    (MethodName.inPackage package name).renamed rename =
      .inPackage (rename.package package) name := by
  simp only [MethodName.inPackage, MethodName.renamed]
  split <;> rfl

mutual

/-- Types are identical under new identities exactly when they were before. -/
theorem Ty.renamed_same :
    ∀ left right : Ty, (left.renamed rename).same (right.renamed rename) = left.same right
  | .named owner name args, right => by
      cases right <;>
        simp [Ty.renamed, Ty.same, Ty.listRenamed_same args]
  | .pointer elem, right => by
      cases right <;> simp [Ty.renamed, Ty.same, Ty.renamed_same elem]
  | .slice elem, right => by
      cases right <;> simp [Ty.renamed, Ty.same, Ty.renamed_same elem]
  | .array length elem, right => by
      cases right <;> simp [Ty.renamed, Ty.same, Ty.renamed_same elem]
  | .map key value, right => by
      cases right <;> simp [Ty.renamed, Ty.same, Ty.renamed_same key, Ty.renamed_same value]
  | .chan direction elem, right => by
      cases right <;> simp [Ty.renamed, Ty.same, Ty.renamed_same elem]
  | .func signature, right => by
      cases right <;> simp [Ty.renamed, Ty.same, Signature.renamed_same signature]
  | .struct fields, right => by
      cases right <;> simp [Ty.renamed, Ty.same, StructField.listRenamed_same fields]
  | .interface methods, right => by
      cases right <;> simp [Ty.renamed, Ty.same, MethodSet.renamed_same methods]

/-- Lists hold identical types under new identities exactly when they did before. -/
theorem Ty.listRenamed_same :
    ∀ left right : List Ty,
      Ty.sameList (Ty.listRenamed rename left) (Ty.listRenamed rename right) =
        Ty.sameList left right
  | [], right => by cases right <;> simp [Ty.listRenamed, Ty.sameList]
  | first :: rest, right => by
      cases right <;>
        simp [Ty.listRenamed, Ty.sameList, Ty.renamed_same first, Ty.listRenamed_same rest]

/-- Signatures are identical under new identities exactly when they were before. -/
theorem Signature.renamed_same :
    ∀ left right : Signature,
      (left.renamed rename).same (right.renamed rename) = left.same right
  | .mk params results variadic, .mk _ _ _ => by
      simp [Signature.renamed, Signature.same, Ty.listRenamed_same params,
        Ty.listRenamed_same results]

/-- Lists hold identical fields under new identities exactly when they did before. -/
theorem StructField.listRenamed_same :
    ∀ left right : List StructField,
      StructField.sameList (StructField.listRenamed rename left)
          (StructField.listRenamed rename right) =
        StructField.sameList left right
  | [], right => by
      rcases right with _ | ⟨⟨_, _, _⟩, _⟩ <;>
        simp [StructField.listRenamed, StructField.sameList]
  | .mk name type embedded :: rest, right => by
      rcases right with _ | ⟨⟨_, _, _⟩, _⟩ <;>
        simp [StructField.listRenamed, StructField.sameList, StructField.same,
          Ty.renamed_same type, StructField.listRenamed_same rest]

/-- A method is provided under new identities exactly when it was before. -/
theorem Method.listRenamed_provides :
    ∀ (methods : List Method) (name : MethodName) (signature : Signature),
      Method.provides (Method.listRenamed rename methods) (name.renamed rename)
          (signature.renamed rename) =
        Method.provides methods name signature
  | [], _, _ => by simp [Method.listRenamed, Method.provides]
  | .mk own ownSignature :: rest, name, signature => by
      simp [Method.listRenamed, Method.provides, Signature.renamed_same ownSignature,
        Method.listRenamed_provides rest]

/-- Method sets hold the same methods under new identities exactly when they did before. -/
theorem MethodSet.renamed_same :
    ∀ left right : MethodSet,
      (left.renamed rename).same (right.renamed rename) = left.same right
  | .mk left, .mk right => by
      have sameLength (methods : List Method) :
          (Method.listRenamed rename methods).length = methods.length := by
        simp [Method.listRenamed_eq_map]
      have provided (method : Method) :
          Method.provides (Method.listRenamed rename left) (method.renamed rename).name
              (method.renamed rename).signature =
            Method.provides left method.name method.signature := by
        simp [Method.listRenamed_provides left]
      simp only [MethodSet.renamed, MethodSet.same, sameLength]
      rw [Method.listRenamed_eq_map rename right, List.all_map]
      simp only [Function.comp_def, provided]

end

/-- A set satisfies another one under new identities exactly when it did before. -/
@[simp] theorem MethodSet.renamed_satisfies
    (set required : MethodSet) :
    (set.renamed rename).satisfies (required.renamed rename) = set.satisfies required := by
  obtain ⟨methods⟩ := set
  simp only [MethodSet.satisfies, MethodSet.renamed_methods, List.all_map, Function.comp_def,
    Method.renamed_name, Method.renamed_signature]
  simp only [MethodSet.methods, ← Method.listRenamed_eq_map, Method.listRenamed_provides]

end Identity

/-! ## Lookup and insertion -/

namespace MethodSet

variable (rename : Renaming)

/-- The method of a name under its new identity. -/
theorem renamed_find?
    (set : MethodSet)
    (name : MethodName) :
    (set.renamed rename).find? (name.renamed rename) =
      (set.find? name).map (Method.renamed rename) := by
  simp only [find?, renamed_methods, List.find?_map, Function.comp_def, Method.renamed_name,
    MethodName.renamed_same]

/-- The signature of a method under its new identity. -/
theorem renamed_get?
    (set : MethodSet)
    (name : MethodName) :
    (set.renamed rename).get? (name.renamed rename) =
      (set.get? name).map (Signature.renamed rename) := by
  simp only [get?, renamed_find?, Option.map_map]
  congr 1
  funext method
  simp

/-- The first method of a name is replaced where it was before. -/
theorem renamed_replaceIn
    (name : MethodName)
    (signature : Signature)
    (methods : List Method) :
    replaceIn (name.renamed rename) (signature.renamed rename)
        (methods.map (Method.renamed rename)) =
      (replaceIn name signature methods).map (Method.renamed rename) := by
  induction methods with
  | nil => rfl
  | cons method rest inductionHypothesis =>
      simp only [List.map_cons, replaceIn, Method.renamed_name, MethodName.renamed_same,
        inductionHypothesis]
      split <;> simp [Method.renamed]

/-- A method is put into a set in the place where it was put before. -/
theorem renamed_insert
    (set : MethodSet)
    (name : MethodName)
    (signature : Signature) :
    (set.insert name signature).renamed rename =
      (set.renamed rename).insert (name.renamed rename) (signature.renamed rename) := by
  have sameContains : (set.renamed rename).contains (name.renamed rename) = set.contains name := by
    simp only [contains, renamed_find?, Option.isSome_map]
  simp only [insert, sameContains, renamed_methods, renamed_replaceIn]
  cases set.contains name <;> simp [MethodSet.renamed, Method.listRenamed_eq_map, Method.renamed]

/-- Methods are put into a set one by one in the places where they were put before. -/
theorem renamed_foldl_insert
    (methods : List Method)
    (set : MethodSet) :
    (methods.foldl (fun set method => set.insert method.name method.signature) set).renamed
        rename =
      (methods.map (Method.renamed rename)).foldl
        (fun set method => set.insert method.name method.signature) (set.renamed rename) := by
  induction methods generalizing set with
  | nil => rfl
  | cons method rest inductionHypothesis =>
      simp only [List.foldl_cons, List.map_cons, inductionHypothesis, renamed_insert,
        Method.renamed_name, Method.renamed_signature]

end MethodSet

end Implementers
