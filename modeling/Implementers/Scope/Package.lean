import Implementers.Scope.Promotion
import Implementers.Symbol

namespace Implementers

/-!
# The symbols of a package

Every declared type that is neither an alias nor generic nor a mere constraint is a symbol, and so
is every named receiver.  The symbols stand in source order.
-/

/-- A symbol with its place among the symbols of its package. -/
structure PlacedSymbol where
  file : Nat
  offset : Nat
  symbol : Symbol

namespace PlacedSymbol

/-- Whether a symbol's place does not come after that of another one. -/
def notAfter
    (left right : PlacedSymbol) :
    Bool :=
  left.file < right.file || (left.file == right.file && left.offset ≤ right.offset)

end PlacedSymbol

namespace Scope

/-- The symbol of a declared type. -/
def typeSymbol
    (scope : Scope)
    (decl : TypeDecl)
    (kind : SymbolKind)
    (methods : MethodSet)
    (isPartial : Bool) :
    PlacedSymbol :=
  { file := decl.file.index
    offset := decl.offset
    symbol :=
      { name := decl.name
        package := scope.package
        kind
        pointer := false
        position := decl.position
        declaration := decl.position
        methods
        isPartial } }

/-- The symbol that a declaration makes, if it makes one. -/
def declSymbol?
    (scope : Scope)
    (table : MethodTable)
    (decl : TypeDecl) :
    Resolve (Option PlacedSymbol) := do
  if decl.spec.isAlias || decl.spec.generic then
    return none
  else do
    match decl.spec.type with
    | .struct _ fields => scope.warnUnpromoted decl.file decl.name fields
    | _ => .answer ()
    match ← scope.underlyingOf decl.name with
    | .interface interface =>
        if interface.isConstraint then
          return none
        else
          return some (scope.typeSymbol decl .interface interface.methods interface.isPartial)
    | _ => do
        let methods ← scope.concreteMethods table decl.name false
        return some (scope.typeSymbol decl .concrete methods false)

/-- The symbols that declarations make. -/
def declSymbols
    (scope : Scope)
    (table : MethodTable) :
    List TypeDecl → Resolve (List PlacedSymbol)
  | [] => .answer []
  | decl :: rest => do
      let symbol ← scope.declSymbol? table decl
      let others ← scope.declSymbols table rest
      return symbol.toList ++ others

/-- The symbol that a named receiver makes. -/
def siteSymbol?
    (scope : Scope)
    (table : MethodTable)
    (site : ReceiverSite) :
    Resolve (Option PlacedSymbol) :=
  match scope.lookup? site.base with
  | none => .answer none
  | some decl => do
      let methods ← scope.concreteMethods table site.base site.pointer
      return some
        { file := site.file.index
          offset := site.offset
          symbol :=
            { name := site.base
              package := scope.package
              kind := .concrete
              pointer := site.pointer
              position := site.position
              declaration := decl.position
              methods
              isPartial := false } }

/-- The symbols that named receivers make. -/
def siteSymbols
    (scope : Scope)
    (table : MethodTable) :
    List ReceiverSite → Resolve (List PlacedSymbol)
  | [] => .answer []
  | site :: rest => do
      let symbol ← scope.siteSymbol? table site
      let others ← scope.siteSymbols table rest
      return symbol.toList ++ others

/-- The symbols of a package in source order. -/
def symbols
    (scope : Scope) :
    Resolve (List Symbol) := do
  let table ← scope.methodTable
  let types ← scope.declSymbols table scope.decls
  let receivers ← scope.siteSymbols table table.receivers
  return ((types ++ receivers).mergeSort PlacedSymbol.notAfter).map PlacedSymbol.symbol

end Scope

/-- The symbols of a package's files and the warnings on the way to them. -/
def resolvePackage
    (package : PackageId)
    (files : List FileScope) :
    Except UnitError (List Symbol × List Warning) := do
  let scope ← Scope.ofFiles package files
  let (answer, state) := scope.symbols .initial
  return (← answer, state.warnings.reverse)

end Implementers
