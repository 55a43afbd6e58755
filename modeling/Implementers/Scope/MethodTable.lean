import Implementers.Scope.Lowering

namespace Implementers

/-!
# Declared methods

The methods of a package by the type that they are declared on.  A receiver may be written in
parentheses, as a pointer, and through aliases; methods of generic types are left out.  A receiver
with a name is a place where its type, or the pointer to it, is found as a symbol.
-/

open Syntax (TypeExpr Ident FuncDecl Receiver)

/-- A method declared on a type. -/
structure DeclaredMethod where
  /-- The declared type that the method belongs to. -/
  base : String
  name : MethodName
  signature : Signature
  pointerReceiver : Bool

/-- A place where a receiver is named. -/
structure ReceiverSite where
  base : String
  pointer : Bool
  file : FileScope
  offset : Nat

namespace ReceiverSite

/-- Where the name of a receiver stands. -/
def position
    (site : ReceiverSite) :
    Position :=
  site.file.position site.offset

end ReceiverSite

/-- All methods and named receivers of a package, in the order of their declaration. -/
structure MethodTable where
  methods : List DeclaredMethod
  receivers : List ReceiverSite

namespace MethodTable

/-- A table without methods. -/
def empty : MethodTable :=
  ⟨[], []⟩

/-- The methods declared on a type. -/
def declared
    (table : MethodTable)
    (base : String) :
    List DeclaredMethod :=
  table.methods.filter (·.base == base)

/-- Whether a method of a name is declared on a type. -/
def declares
    (table : MethodTable)
    (base : String)
    (name : MethodName) :
    Bool :=
  (table.declared base).any (·.name.same name)

end MethodTable

namespace Scope

/-- What remains of a receiver type without parentheses and pointer. -/
structure BareReceiver where
  pointer : Bool
  type : TypeExpr

/-- The receiver type without parentheses and at most one pointer, or what is wrong with it. -/
def bareReceiver
    (pointer : Bool) :
    TypeExpr → Except String BareReceiver
  | .paren _ (.missing _) => .error "()"
  | .paren _ inner => bareReceiver pointer inner
  | .pointer span elem =>
      if pointer then
        .ok ⟨pointer, .pointer span elem⟩
      else
        match elem with
        | .missing _ => .error "*"
        | elem => bareReceiver true elem
  | other => .ok ⟨pointer, other⟩

/-- How many aliases a receiver may go through. -/
def aliasLimit : Nat := 64

/--
The declaration that a name leads to through aliases for plain names.  The outer `none` stands for
an alias of anything else, the inner one for a name that is not declared.
-/
def throughAliases?
    (scope : Scope) :
    Nat → String → Option (Option TypeDecl)
  | 0, _ => none
  | hops + 1, name =>
      match scope.lookup? name with
      | none => some none
      | some decl =>
          if decl.spec.isAlias then
            match decl.spec.type with
            | .name _ none target _ _ =>
                if hops = 0 then
                  none
                else
                  match target with
                  | none => some none
                  | some target => throughAliases? scope hops target.text
            | _ => none
          else
            some (some decl)

/-- The declared type that a bare receiver type names; methods of generic types have none. -/
def receiverBase
    (scope : Scope)
    (file : FileScope)
    (position : Position)
    (type : TypeExpr) :
    Resolve (Option TypeDecl) :=
  let invalid := UnitError.invalidReceiver position (file.excerpt type.span)
  match type with
  | .name _ none (some ident) hasArgs _ =>
      match scope.throughAliases? aliasLimit ident.text with
      | none => .fail invalid
      | some none =>
          if isPredeclared ident.text then .fail invalid else .fail (file.undefined ident)
      | some (some decl) =>
          if decl.spec.generic || hasArgs then
            .answer none
          else do
            let underlying ← scope.underlyingOf decl.name
            if underlying.isInterface then .fail invalid else .answer (some decl)
  | _ => .fail invalid

/-- The declared type of a receiver, and whether the receiver is a pointer to it. -/
def receiverOf
    (scope : Scope)
    (file : FileScope)
    (receiver : Receiver) :
    Resolve (Option (TypeDecl × Bool)) := do
  let position := file.position receiver.span.start
  match receiver.param.map Syntax.Param.type with
  | none | some (.missing _) => .fail (.invalidSource position "missing receiver")
  | some type =>
      match bareReceiver false type with
      | .error name => .fail (.invalidReceiver position name)
      | .ok bare => do
          let base ← scope.receiverBase file position bare.type
          return base.map fun decl => (decl, bare.pointer)

/-- The site of a receiver that has a name. -/
def receiverSite?
    (file : FileScope)
    (receiver : Receiver)
    (base : String)
    (pointer : Bool) :
    Option ReceiverSite :=
  (receiver.param.bind Syntax.Param.name).bind fun name =>
    if name.text == blankName then none else some ⟨base, pointer, file, name.span.start⟩

/-- A method table with the method that a function declaration of a file declares. -/
def addMethodDecl
    (scope : Scope)
    (file : FileScope)
    (table : MethodTable)
    (func : FuncDecl) :
    Resolve MethodTable := do
  match func.receiver with
  | none => return table
  | some receiver =>
      match ← scope.receiverOf file receiver with
      | none => return table
      | some (decl, pointer) =>
          match func.name with
          | none => return table
          | some name =>
              let found := (receiverSite? file receiver decl.name pointer).toList
              let sited := { table with receivers := table.receivers ++ found }
              if name.text == blankName then
                return sited
              else do
                let signature ← scope.lowerSignature file func.params func.result
                let method := scope.methodName name.text
                if sited.declares decl.name method then
                  .fail (.duplicateMethod (file.position name.span.start)
                    (decl.name ++ "." ++ name.text))
                else
                  return { sited with
                    methods := sited.methods ++ [⟨decl.name, method, signature, pointer⟩] }

/-- A method table with the methods that function declarations declare. -/
def addMethodDecls
    (scope : Scope) :
    MethodTable → List (FileScope × FuncDecl) → Resolve MethodTable
  | table, [] => .answer table
  | table, (file, func) :: rest => do
      let added ← scope.addMethodDecl file table func
      scope.addMethodDecls added rest

/-- The function declarations of a package with their files. -/
def funcDecls
    (scope : Scope) :
    List (FileScope × FuncDecl) :=
  scope.files.flatMap fun file => file.source.funcs.map fun func => (file, func)

/-- The methods and named receivers of a package. -/
def methodTable
    (scope : Scope) :
    Resolve MethodTable :=
  scope.addMethodDecls .empty scope.funcDecls

end Scope

end Implementers
