import Implementers.Scope.Resolve

namespace Implementers

/-!
# From type expressions to type descriptors

A type expression of a file is lowered to the type that it denotes in the package.  Aliases are
transparent; other declared types stay names.  The methods of an interface are its own ones and
those of every interface that it embeds.

The functions on expressions take the meaning of declared names as a parameter.  `Scope.meaning`
closes the circle for a given number of declarations looked into inside each other; a chain of more
of them than the package has would meet one of them twice, which is an error before.
-/

/-- What the declared names of a package mean to the expressions that mention them. -/
structure Meaning where
  /-- The type that an alias stands for. -/
  typeOfAlias : TypeDecl → Resolve Ty
  /-- The type underneath a declared name. -/
  underlying : TypeDecl → Resolve Underlying

open Syntax (Ident TypeExpr ParamList Param FieldDecl Elem)

namespace Scope

/-- The type that a name without a qualifier denotes when the package does not declare it. -/
def undeclaredType
    (file : FileScope)
    (ident : Ident)
    (args : List Ty) :
    Resolve Ty :=
  match ident.text with
  | "byte" => .answer (.predeclared "uint8")
  | "rune" => .answer (.predeclared "int32")
  | "any" => .answer .emptyInterface
  | name =>
      if isPredeclared name then
        .answer (.predeclared name)
      else
        match file.dotImports.head? with
        | some path => .answer (.named (.imported path) name args)
        | none => .fail (file.undefined ident)

/-- The type that a name denotes, given its lowered type arguments. -/
def namedType
    (scope : Scope)
    (meaning : Meaning)
    (file : FileScope)
    (qualifier : Option Ident)
    (ident : Ident)
    (args : List Ty) :
    Resolve Ty :=
  match qualifier with
  | some package =>
      match file.importPath? package.text with
      | some path => .answer (.named (.imported path) ident.text args)
      | none => .fail (file.undefined package)
  | none =>
      match scope.lookup? ident.text with
      | some decl =>
          if decl.spec.isAlias then
            meaning.typeOfAlias decl
          else
            .answer (.named (.local scope.package) ident.text args)
      | none => undeclaredType file ident args

/-- The type underneath a name without type arguments when the package does not declare it. -/
def undeclaredUnderlying
    (scope : Scope)
    (file : FileScope)
    (ident : Ident) :
    Resolve Underlying :=
  match ident.text with
  | "error" => .answer (.interface ⟨scope.errorMethods, false, false⟩)
  | "any" => .answer (.interface ⟨.empty, false, false⟩)
  | "comparable" => .answer (.interface ⟨.empty, true, false⟩)
  | name =>
      if isPredeclared name then
        .answer .other
      else
        match file.dotImports.head? with
        | some path => .answer (.imported path)
        | none => .fail (file.undefined ident)

/-- The type underneath a name without type arguments. -/
def plainNameUnderlying
    (scope : Scope)
    (meaning : Meaning)
    (file : FileScope)
    (span : Syntax.Span)
    (qualifier ident : Option Ident) :
    Resolve Underlying :=
  match ident with
  | none => .fail (file.missing span.start "type name")
  | some ident =>
      match qualifier with
      | some package =>
          match file.importPath? package.text with
          | some path => .answer (.imported path)
          | none => .fail (file.undefined package)
      | none =>
          match scope.lookup? ident.text with
          | some decl => meaning.underlying decl
          | none => undeclaredUnderlying scope file ident

/-- A method added to a set, where one name must not have two signatures. -/
def addMethod
    (position : Position)
    (set : MethodSet)
    (method : Method) :
    Except UnitError MethodSet :=
  match set.get? method.name with
  | none => .ok (set.insert method.name method.signature)
  | some existing =>
      if existing.same method.signature then
        .ok set
      else
        .error (.duplicateMethod position method.name.name)

/-- Methods added to a set one by one. -/
def addMethods
    (position : Position) :
    MethodSet → List Method → Except UnitError MethodSet
  | set, [] => .ok set
  | set, method :: rest =>
      match addMethod position set method with
      | .ok added => addMethods position added rest
      | .error error => .error error

/-- What an embedded name contributes to an interface, by the type underneath it. -/
def contribution
    (file : FileScope)
    (span : Syntax.Span)
    (position : Position) :
    Underlying → Resolve InterfaceMethods
  | .interface methods => .answer methods
  | .imported path => do
      Resolve.warn (.unloadedInterface position (file.excerpt span) path)
      return { isPartial := true }
  | _ => .answer { isConstraint := true }

/-- The flags and methods of an interface joined with those of an embedded one. -/
def embed
    (position : Position)
    (own inner : InterfaceMethods) :
    Except UnitError InterfaceMethods :=
  match addMethods position own.methods inner.methods.methods with
  | .ok methods =>
      .ok
        { methods
          isConstraint := own.isConstraint || inner.isConstraint
          isPartial := own.isPartial || inner.isPartial }
  | .error error => .error error

mutual

/-- The type that a type expression of a file denotes. -/
def lowerTypeWith
    (scope : Scope)
    (meaning : Meaning)
    (file : FileScope) :
    TypeExpr → Resolve Ty
  | .missing start => .fail (file.missing start "type")
  | .name span qualifier ident _ args =>
      match ident with
      | none => .fail (file.missing span.start "type name")
      | some ident => do
          let lowered ← lowerTypesWith scope meaning file args
          namedType scope meaning file qualifier ident lowered
  | .pointer _ elem => do
      return .pointer (← lowerTypeWith scope meaning file elem)
  | .slice _ elem => do
      return .slice (← lowerTypeWith scope meaning file elem)
  | .array _ length elem => do
      return .array length (← lowerTypeWith scope meaning file elem)
  | .map _ key value => do
      let loweredKey ← lowerTypeWith scope meaning file key
      let loweredValue ← lowerTypeWith scope meaning file value
      return .map loweredKey loweredValue
  | .chan _ direction elem => do
      return .chan direction (← lowerTypeWith scope meaning file elem)
  | .func _ params result => do
      let (types, variadic) ← lowerParamListWith scope meaning file params
      let results ← lowerResultWith scope meaning file result
      return .func (.mk types results variadic)
  | .struct _ fields => do
      return .struct (← lowerFieldsWith scope meaning file fields)
  | .interface _ elems => do
      let interface ← interfaceMethodsWith scope meaning file [] {} elems
      return .interface interface.methods
  | .paren _ inner => lowerTypeWith scope meaning file inner

/-- The types that the type expressions of a list denote. -/
def lowerTypesWith
    (scope : Scope)
    (meaning : Meaning)
    (file : FileScope) :
    List TypeExpr → Resolve (List Ty)
  | [] => .answer []
  | first :: rest => do
      let lowered ← lowerTypeWith scope meaning file first
      let others ← lowerTypesWith scope meaning file rest
      return lowered :: others

/-- The fields that field declarations make. -/
def lowerFieldsWith
    (scope : Scope)
    (meaning : Meaning)
    (file : FileScope) :
    List FieldDecl → Resolve (List StructField)
  | [] => .answer []
  | .mk span names starred type :: rest => do
      let lowered ← lowerTypeWith scope meaning file type
      let declared ←
        if names.isEmpty then
          match (FieldDecl.mk span names starred type).embeddedName? with
          | none => .fail (file.missing span.start "embedded type name")
          | some name =>
              .answer [StructField.mk name (if starred then .pointer lowered else lowered) true]
        else
          .answer (names.map fun name => StructField.mk name.text lowered false)
      let others ← lowerFieldsWith scope meaning file rest
      return declared ++ others

/-- The parameter types of a list, and whether it is variadic. -/
def lowerParamListWith
    (scope : Scope)
    (meaning : Meaning)
    (file : FileScope) :
    ParamList → Resolve (List Ty × Bool)
  | .absent => .answer ([], false)
  | .list span params =>
      lowerParamsWith scope meaning file span
        (params.any fun param => param.name.isSome) 0 params

/--
The types of parameter entries, and whether one of them is variadic.  In a list with names an entry
without one is a name itself; `pending` such names wait for the type of the next entry.
-/
def lowerParamsWith
    (scope : Scope)
    (meaning : Meaning)
    (file : FileScope)
    (list : Syntax.Span)
    (grouped : Bool)
    (pending : Nat) :
    List Param → Resolve (List Ty × Bool)
  | [] =>
      if pending = 0 then
        .answer ([], false)
      else
        .fail (.invalidSource (file.position list.start) "mixed named and unnamed parameters")
  | .mk _ name variadic type :: rest =>
      if grouped && name.isNone then
        lowerParamsWith scope meaning file list grouped (pending + 1) rest
      else do
        let lowered ← lowerTypeWith scope meaning file type
        let own := if variadic then .slice lowered else lowered
        let (others, otherVariadic) ← lowerParamsWith scope meaning file list grouped 0 rest
        return (List.replicate (pending + 1) own ++ others, variadic || otherVariadic)

/-- The result types of a function. -/
def lowerResultWith
    (scope : Scope)
    (meaning : Meaning)
    (file : FileScope) :
    Syntax.Result → Resolve (List Ty)
  | .absent => .answer []
  | .single type => do
      return [← lowerTypeWith scope meaning file type]
  | .list params => do
      let (types, _) ← lowerParamListWith scope meaning file params
      return types

/-- The methods of interface elements, added to what the elements before them gave. -/
def interfaceMethodsWith
    (scope : Scope)
    (meaning : Meaning)
    (file : FileScope)
    (explicit : List String)
    (own : InterfaceMethods) :
    List Elem → Resolve InterfaceMethods
  | [] => .answer own
  | .method span name params result :: rest =>
      match name with
      | none => .fail (file.missing span.start "method name")
      | some name =>
          if name.text == blankName then
            interfaceMethodsWith scope meaning file explicit own rest
          else
            let position := file.position name.span.start
            if explicit.contains name.text then
              .fail (.duplicateMethod position name.text)
            else do
              let (types, variadic) ← lowerParamListWith scope meaning file params
              let results ← lowerResultWith scope meaning file result
              let method := Method.mk (scope.methodName name.text) (.mk types results variadic)
              let methods ← Resolve.ofExcept (addMethod position own.methods method)
              interfaceMethodsWith scope meaning file (name.text :: explicit)
                { own with methods } rest
  | .embedded span type :: rest => do
      let position := file.position span.start
      let inner ←
        match type with
        | .missing _ => .fail (file.missing span.start "embedded type")
        | type => embeddedMethodsWith scope meaning file position type
      let joined ← Resolve.ofExcept (embed position own inner)
      interfaceMethodsWith scope meaning file explicit joined rest
  | .typeSet _ :: rest =>
      interfaceMethodsWith scope meaning file explicit { own with isConstraint := true } rest

/--
What an embedded element contributes to an interface.  One that is no interface restricts the types
that satisfy it; one from a package that is never loaded leaves the interface incomplete.
-/
def embeddedMethodsWith
    (scope : Scope)
    (meaning : Meaning)
    (file : FileScope)
    (position : Position) :
    TypeExpr → Resolve InterfaceMethods
  | .missing start => .fail (file.missing start "type")
  | .paren _ inner => embeddedMethodsWith scope meaning file position inner
  | .interface _ elems => interfaceMethodsWith scope meaning file [] {} elems
  | .name span qualifier ident hasArgs _ =>
      if hasArgs then
        .answer { isConstraint := true }
      else do
        let underlying ← plainNameUnderlying scope meaning file span qualifier ident
        contribution file span position underlying
  | _ => .answer { isConstraint := true }

end

/-- The type underneath a type expression. -/
def underlyingWith
    (scope : Scope)
    (meaning : Meaning)
    (file : FileScope) :
    TypeExpr → Resolve Underlying
  | .paren _ inner => underlyingWith scope meaning file inner
  | .interface _ elems => do
      return .interface (← interfaceMethodsWith scope meaning file [] {} elems)
  | .struct _ fields => do
      let _ ← lowerFieldsWith scope meaning file fields
      return .struct file fields
  | .name span qualifier ident hasArgs args =>
      if qualifier.isNone && hasArgs then do
        let _ ← lowerTypeWith scope meaning file (.name span qualifier ident hasArgs args)
        return .other
      else
        plainNameUnderlying scope meaning file span qualifier ident
  | other => do
      let _ ← lowerTypeWith scope meaning file other
      return .other

/-- What declared names mean, with at most a given number of declarations inside each other. -/
def meaning
    (scope : Scope) :
    Nat → Meaning
  | 0 =>
      { typeOfAlias := fun decl => .fail decl.recursive
        underlying := fun decl => .fail decl.recursive }
  | depth + 1 =>
      let inner := scope.meaning depth
      { typeOfAlias := fun decl =>
          .expanding decl (scope.lowerTypeWith inner decl.file decl.spec.type)
        underlying := fun decl =>
          if decl.spec.isAlias then
            .expanding decl (scope.underlyingWith inner decl.file decl.spec.type)
          else
            .finding decl (scope.underlyingWith inner decl.file decl.spec.type) }

/-- What the declared names of a package mean. -/
def declMeaning
    (scope : Scope) :
    Meaning :=
  scope.meaning (scope.decls.length + 1)

/-- The type that a type expression of a file denotes. -/
def lowerType
    (scope : Scope)
    (file : FileScope)
    (expr : TypeExpr) :
    Resolve Ty :=
  scope.lowerTypeWith scope.declMeaning file expr

/-- The signature that parameters and results of a file denote. -/
def lowerSignature
    (scope : Scope)
    (file : FileScope)
    (params : ParamList)
    (result : Syntax.Result) :
    Resolve Signature := do
  let (types, variadic) ← scope.lowerParamListWith scope.declMeaning file params
  let results ← scope.lowerResultWith scope.declMeaning file result
  return .mk types results variadic

/-- The methods that the elements of an interface of a file make. -/
def interfaceMethods
    (scope : Scope)
    (file : FileScope)
    (elems : List Elem) :
    Resolve InterfaceMethods :=
  scope.interfaceMethodsWith scope.declMeaning file [] {} elems

/-- The type underneath a name of a package; a name it does not declare is nothing special. -/
def underlyingOf
    (scope : Scope)
    (name : String) :
    Resolve Underlying :=
  match scope.lookup? name with
  | some decl => scope.declMeaning.underlying decl
  | none => .answer .other

end Scope

end Implementers
