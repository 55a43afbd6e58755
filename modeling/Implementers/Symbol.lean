import Implementers.Position
import Implementers.Ty.Identity
import Implementers.Ty.Localize

namespace Implementers

/-!
# Symbols

A symbol is a declared type, or the pointer to one that some method is declared on, together with
its method set.  Two symbols are the same entity when they agree on their package and on the text
of their type.
-/

/-- Whether a symbol is an interface. -/
inductive SymbolKind where
  | interface
  | concrete
  deriving Repr, DecidableEq

/-- A declared type with its method set. -/
structure Symbol where
  name : String
  package : PackageId
  kind : SymbolKind
  /-- Whether the symbol is the pointer to the declared type. -/
  pointer : Bool
  /-- Where the symbol was found. -/
  position : Position
  /-- Where the declared type behind the symbol is declared. -/
  declaration : Position
  methods : MethodSet
  /-- Whether methods from packages that are never loaded are lacking. -/
  isPartial : Bool

/-- What decides whether two symbols are the same entity. -/
structure IdentityKey where
  package : PackageId
  type : String
  deriving Repr, DecidableEq

namespace IdentityKey

/-- Whether two keys are of the same entity. -/
def same
    (left right : IdentityKey) :
    Bool :=
  left.package.same right.package && left.type == right.type

/-- A key as it is shown in messages. -/
def display
    (key : IdentityKey) :
    String :=
  key.type ++ " in " ++ key.package.unit.text

end IdentityKey

namespace Symbol

/-- The name of the declared type behind the name of its package. -/
def qualifiedName
    (symbol : Symbol) :
    String :=
  symbol.package.name ++ "." ++ symbol.name

/-- The mark of a pointer, if the symbol is one. -/
def mark
    (symbol : Symbol) :
    String :=
  if symbol.pointer then "*" else ""

/-- The text of the symbol's type. -/
def typeString
    (symbol : Symbol) :
    String :=
  symbol.mark ++ symbol.qualifiedName

/-- The text of the symbol's type without its package. -/
def displayName
    (symbol : Symbol) :
    String :=
  symbol.mark ++ symbol.name

/-- The key that the symbol shares with other symbols of the same entity. -/
def identity
    (symbol : Symbol) :
    IdentityKey :=
  ⟨symbol.package, symbol.typeString⟩

/-- Whether a symbol is an interface. -/
def isInterface
    (symbol : Symbol) :
    Bool :=
  symbol.kind == .interface

/-- Whether two symbols agree in everything. -/
def same
    (left right : Symbol) :
    Bool :=
  left.name == right.name && left.package.same right.package && left.kind == right.kind &&
    left.pointer == right.pointer && left.position.same right.position &&
    left.declaration.same right.declaration && left.methods.same right.methods &&
    left.isPartial == right.isPartial

/-- The symbol with the owners of scanned packages replaced in its method set. -/
def localize
    (scanned : ScannedPackages)
    (symbol : Symbol) :
    Symbol :=
  { symbol with methods := symbol.methods.localize scanned }

end Symbol

/-- The symbols of one unit of source files. -/
structure SymbolTable where
  unit : Option Path
  symbols : List Symbol

namespace SymbolTable

/-- The first symbol with the given text of its type. -/
def find?
    (table : SymbolTable)
    (type : String) :
    Option Symbol :=
  table.symbols.find? (·.typeString == type)

end SymbolTable

/-- The symbols of all units in the order of their arrival. -/
abbrev Universe := List Symbol

namespace Universe

/-- The symbols with the given text of their type. -/
def lookup
    (symbols : Universe)
    (type : String) :
    List Symbol :=
  symbols.filter (·.typeString == type)

/-- The interfaces with the given text of their type. -/
def interfacesNamed
    (symbols : Universe)
    (type : String) :
    List Symbol :=
  (lookup symbols type).filter Symbol.isInterface

end Universe

end Implementers
