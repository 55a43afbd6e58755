import Implementers.Ty.Basic

namespace Implementers

/-!
# Imported owners of scanned packages

A type from another package arrives with its import path as its owner.  When that path belongs to a
package that was scanned as well, the owner becomes that package.  Names, lengths, directions and
the order of methods stay as they are.
-/

/-- The scanned packages by import path. -/
abbrev ScannedPackages := String → Option PackageId

namespace Owner

/-- The owner with an import path replaced by the package scanned for it. -/
def localize
    (scanned : ScannedPackages) :
    Owner → Owner
  | .imported path =>
      match scanned path with
      | some package => .local package
      | none => .imported path
  | owner => owner

/-- Whether an owner is an import path that a package was scanned for. -/
def isScanned
    (scanned : ScannedPackages) :
    Owner → Bool
  | .imported path => (scanned path).isSome
  | _ => false

end Owner

mutual

/-- The type with the owners of scanned packages replaced at every depth. -/
def Ty.localize
    (scanned : ScannedPackages) :
    Ty → Ty
  | .named owner name args => .named (owner.localize scanned) name (Ty.localizeList scanned args)
  | .pointer elem => .pointer (elem.localize scanned)
  | .slice elem => .slice (elem.localize scanned)
  | .array length elem => .array length (elem.localize scanned)
  | .map key value => .map (key.localize scanned) (value.localize scanned)
  | .chan direction elem => .chan direction (elem.localize scanned)
  | .func signature => .func (signature.localize scanned)
  | .struct fields => .struct (StructField.localizeList scanned fields)
  | .interface methods => .interface (methods.localize scanned)

/-- The types of a list with the owners of scanned packages replaced. -/
def Ty.localizeList
    (scanned : ScannedPackages) :
    List Ty → List Ty
  | [] => []
  | first :: rest => first.localize scanned :: Ty.localizeList scanned rest

/-- The signature with the owners of scanned packages replaced. -/
def Signature.localize
    (scanned : ScannedPackages) :
    Signature → Signature
  | .mk params results variadic =>
      .mk (Ty.localizeList scanned params) (Ty.localizeList scanned results) variadic

/-- The fields of a list with the owners of scanned packages replaced. -/
def StructField.localizeList
    (scanned : ScannedPackages) :
    List StructField → List StructField
  | [] => []
  | .mk name type embedded :: rest =>
      .mk name (type.localize scanned) embedded :: StructField.localizeList scanned rest

/-- The methods of a list with the owners of scanned packages replaced. -/
def Method.localizeList
    (scanned : ScannedPackages) :
    List Method → List Method
  | [] => []
  | .mk name signature :: rest =>
      .mk name (signature.localize scanned) :: Method.localizeList scanned rest

/-- The method set with the owners of scanned packages replaced. -/
def MethodSet.localize
    (scanned : ScannedPackages) :
    MethodSet → MethodSet
  | .mk methods => .mk (Method.localizeList scanned methods)

end

mutual

/-- Whether an owner of a scanned package occurs in a type. -/
def Ty.mentionsScanned
    (scanned : ScannedPackages) :
    Ty → Bool
  | .named owner _ args => owner.isScanned scanned || Ty.listMentionsScanned scanned args
  | .pointer elem => elem.mentionsScanned scanned
  | .slice elem => elem.mentionsScanned scanned
  | .array _ elem => elem.mentionsScanned scanned
  | .map key value => key.mentionsScanned scanned || value.mentionsScanned scanned
  | .chan _ elem => elem.mentionsScanned scanned
  | .func signature => signature.mentionsScanned scanned
  | .struct fields => StructField.listMentionsScanned scanned fields
  | .interface methods => methods.mentionsScanned scanned

/-- Whether an owner of a scanned package occurs in a list of types. -/
def Ty.listMentionsScanned
    (scanned : ScannedPackages) :
    List Ty → Bool
  | [] => false
  | first :: rest => first.mentionsScanned scanned || Ty.listMentionsScanned scanned rest

/-- Whether an owner of a scanned package occurs in a signature. -/
def Signature.mentionsScanned
    (scanned : ScannedPackages) :
    Signature → Bool
  | .mk params results _ =>
      Ty.listMentionsScanned scanned params || Ty.listMentionsScanned scanned results

/-- Whether an owner of a scanned package occurs in a list of fields. -/
def StructField.listMentionsScanned
    (scanned : ScannedPackages) :
    List StructField → Bool
  | [] => false
  | .mk _ type _ :: rest =>
      type.mentionsScanned scanned || StructField.listMentionsScanned scanned rest

/-- Whether an owner of a scanned package occurs in a list of methods. -/
def Method.listMentionsScanned
    (scanned : ScannedPackages) :
    List Method → Bool
  | [] => false
  | .mk _ signature :: rest =>
      signature.mentionsScanned scanned || Method.listMentionsScanned scanned rest

/-- Whether an owner of a scanned package occurs in a method set. -/
def MethodSet.mentionsScanned
    (scanned : ScannedPackages) :
    MethodSet → Bool
  | .mk methods => Method.listMentionsScanned scanned methods

end

end Implementers
