import Implementers.Syntax.Tree

namespace Implementers.Syntax

/-!
# Type expressions

The type expressions of a source file as a reader of the tree sees them.  A part that the source
lacks is a `missing` type expression, which remembers where the construct begins that lacks it, or
an absent list or name.
-/

/-- An identifier and the span of source where it stands. -/
structure Ident where
  text : String
  span : Span
  deriving Repr, DecidableEq

/-- Which way values go through a channel. -/
inductive ChanDirection where
  | both
  | send
  | receive
  deriving Repr, DecidableEq

mutual

/-- A type expression as it is written. -/
inductive TypeExpr where
  | missing (start : Nat)
  | name
      (span : Span)
      (qualifier : Option Ident)
      (ident : Option Ident)
      (hasArgs : Bool)
      (args : List TypeExpr)
  | pointer (span : Span) (elem : TypeExpr)
  | slice (span : Span) (elem : TypeExpr)
  | array (span : Span) (length : String) (elem : TypeExpr)
  | map (span : Span) (key value : TypeExpr)
  | chan (span : Span) (direction : ChanDirection) (elem : TypeExpr)
  | func (span : Span) (params : ParamList) (result : Result)
  | struct (span : Span) (fields : List FieldDecl)
  | interface (span : Span) (elems : List Elem)
  | paren (span : Span) (inner : TypeExpr)

/-- A parenthesised list of parameters or results, if the source has one. -/
inductive ParamList where
  | absent
  | list (span : Span) (params : List Param)

/-- One entry of a parameter list. -/
inductive Param where
  | mk (span : Span) (name : Option Ident) (variadic : Bool) (type : TypeExpr)

/-- The results of a function: none, one bare type, or a parenthesised list. -/
inductive Result where
  | absent
  | single (type : TypeExpr)
  | list (params : ParamList)

/-- One field declaration; it embeds a type when it has no names. -/
inductive FieldDecl where
  | mk (span : Span) (names : List Ident) (starred : Bool) (type : TypeExpr)

/-- One element of an interface. -/
inductive Elem where
  | method (span : Span) (name : Option Ident) (params : ParamList) (result : Result)
  | embedded (span : Span) (type : TypeExpr)
  | typeSet (span : Span)

end

namespace TypeExpr

/-- The span of source that a type expression covers. -/
def span : TypeExpr → Span
  | .missing start => ⟨start, start⟩
  | .name span _ _ _ _ => span
  | .pointer span _ => span
  | .slice span _ => span
  | .array span _ _ => span
  | .map span _ _ => span
  | .chan span _ _ => span
  | .func span _ _ => span
  | .struct span _ => span
  | .interface span _ => span
  | .paren span _ => span

end TypeExpr

namespace ParamList

/-- The entries of a list; an absent list has none. -/
def entries : ParamList → List Param
  | .absent => []
  | .list _ params => params

end ParamList

namespace Param

/-- The span of source that an entry covers. -/
def span : Param → Span
  | .mk span _ _ _ => span

/-- The name of an entry, if it is written with a name before its type. -/
def name : Param → Option Ident
  | .mk _ name _ _ => name

/-- Whether an entry takes any number of arguments. -/
def variadic : Param → Bool
  | .mk _ _ variadic _ => variadic

/-- The type of an entry. -/
def type : Param → TypeExpr
  | .mk _ _ _ type => type

end Param

namespace FieldDecl

/-- The span of source that a field declaration covers. -/
def span : FieldDecl → Span
  | .mk span _ _ _ => span

/-- The names that a field declaration gives. -/
def names : FieldDecl → List Ident
  | .mk _ names _ _ => names

/-- The type of the fields. -/
def type : FieldDecl → TypeExpr
  | .mk _ _ _ type => type

/-- Whether a field declaration embeds a type. -/
def isEmbedded
    (field : FieldDecl) :
    Bool :=
  field.names.isEmpty

/-- Whether a field declaration embeds a pointer to a type. -/
def embedsPointer : FieldDecl → Bool
  | .mk _ names starred _ => names.isEmpty && starred

/-- The name that an embedded field goes by: the type's name without qualifier or pointer. -/
def embeddedName? : FieldDecl → Option String
  | .mk _ _ _ (.name _ _ ident _ _) => ident.map Ident.text
  | _ => none

end FieldDecl

end Implementers.Syntax
