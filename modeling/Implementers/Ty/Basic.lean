import Implementers.Package
import Implementers.Syntax.TypeExpr
import Implementers.Text.Category

namespace Implementers

/-!
# Type descriptors and method sets

A type descriptor is the resolved form of a type expression.  Named types carry the package that
declares them; composite types carry their structure.  A method set keeps its methods in the order
in which they were first inserted, at most one for each method name.
-/

/-- Whether a name is exported from its package. -/
def isExported
    (name : String) :
    Bool :=
  name.toList.head?.any Text.isUppercase

/-- Where a named type is declared. -/
inductive Owner where
  | predeclared
  | local (package : PackageId)
  | imported (path : String)
  deriving Repr, DecidableEq

/--
A method name as type identity sees it.  An unexported name carries its package, so that methods of
one name from different packages are different.
-/
structure MethodName where
  name : String
  package : Option PackageId
  deriving Repr, DecidableEq

namespace MethodName

/-- The method name that a name stands for in a package. -/
def inPackage
    (package : PackageId)
    (name : String) :
    MethodName :=
  ⟨name, if isExported name then none else some package⟩

/-- Whether a method can be seen from every package. -/
def isExported
    (method : MethodName) :
    Bool :=
  method.package.isNone

/-- Whether two method names are the same. -/
def same
    (left right : MethodName) :
    Bool :=
  left.name == right.name &&
    match left.package, right.package with
    | none, none => true
    | some leftPackage, some rightPackage => leftPackage.same rightPackage
    | _, _ => false

end MethodName

mutual

/-- A resolved type. -/
inductive Ty where
  | named (owner : Owner) (name : String) (args : List Ty)
  | pointer (elem : Ty)
  | slice (elem : Ty)
  | array (length : String) (elem : Ty)
  | map (key value : Ty)
  | chan (direction : Syntax.ChanDirection) (elem : Ty)
  | func (signature : Signature)
  | struct (fields : List StructField)
  | interface (methods : MethodSet)

/--
The parameters and results of a function.  The last parameter of a variadic function is a slice of
the type that is repeated.
-/
inductive Signature where
  | mk (params results : List Ty) (variadic : Bool)

/-- One field of a struct type. -/
inductive StructField where
  | mk (name : String) (type : Ty) (embedded : Bool)

/-- A method name with its signature. -/
inductive Method where
  | mk (name : MethodName) (signature : Signature)

/-- Methods in the order of their insertion. -/
inductive MethodSet where
  | mk (methods : List Method)

end

namespace Signature

/-- The parameter types. -/
def params : Signature → List Ty
  | .mk params _ _ => params

/-- The result types. -/
def results : Signature → List Ty
  | .mk _ results _ => results

/-- Whether the last parameter takes any number of arguments. -/
def variadic : Signature → Bool
  | .mk _ _ variadic => variadic

end Signature

namespace StructField

/-- The name of a field; an embedded field goes by the name of its type. -/
def name : StructField → String
  | .mk name _ _ => name

/-- The type of a field. -/
def type : StructField → Ty
  | .mk _ type _ => type

/-- Whether a field is embedded. -/
def embedded : StructField → Bool
  | .mk _ _ embedded => embedded

end StructField

namespace Method

/-- The name of a method. -/
def name : Method → MethodName
  | .mk name _ => name

/-- The signature of a method. -/
def signature : Method → Signature
  | .mk _ signature => signature

end Method

namespace Ty

/-- A predeclared type. -/
def predeclared
    (name : String) :
    Ty :=
  .named .predeclared name []

/-- The interface without methods. -/
def emptyInterface : Ty :=
  .interface (.mk [])

end Ty

instance : Inhabited Ty := ⟨Ty.emptyInterface⟩

instance : Inhabited Signature := ⟨.mk [] [] false⟩

namespace MethodSet

/-- The methods of a set in the order of their insertion. -/
def methods : MethodSet → List Method
  | .mk methods => methods

/-- The set without methods. -/
def empty : MethodSet :=
  .mk []

instance : Inhabited MethodSet := ⟨empty⟩

/-- The method of a name. -/
def find?
    (set : MethodSet)
    (name : MethodName) :
    Option Method :=
  set.methods.find? (·.name.same name)

/-- The signature of the method of a name. -/
def get?
    (set : MethodSet)
    (name : MethodName) :
    Option Signature :=
  (set.find? name).map Method.signature

/-- Whether a set has a method of a name. -/
def contains
    (set : MethodSet)
    (name : MethodName) :
    Bool :=
  (set.find? name).isSome

/-- The number of methods. -/
def size
    (set : MethodSet) :
    Nat :=
  set.methods.length

/-- The list with the signature of its first method of a name replaced. -/
def replaceIn
    (name : MethodName)
    (signature : Signature) :
    List Method → List Method
  | [] => []
  | method :: rest =>
      if method.name.same name then
        .mk method.name signature :: rest
      else
        method :: replaceIn name signature rest

/-- Put a method into a set: in place of the one of its name, or else behind all others. -/
def insert
    (set : MethodSet)
    (name : MethodName)
    (signature : Signature) :
    MethodSet :=
  if set.contains name then
    .mk (replaceIn name signature set.methods)
  else
    .mk (set.methods ++ [.mk name signature])

/-- The set that results from inserting methods one by one. -/
def ofMethods
    (methods : List Method) :
    MethodSet :=
  methods.foldl (fun set method => set.insert method.name method.signature) empty

end MethodSet

end Implementers
