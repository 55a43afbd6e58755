import Implementers.Syntax.Parse
import Implementers.Syntax.TypeExpr

namespace Implementers.Syntax

/-!
# Source files

The declarations of a source file, read off its syntax tree.  Reading folds the tree from the
leaves up: every node becomes the part that it plays for the node around it, and a node finds what
it needs among the parts of its direct children, the first fitting one where it needs one.
-/

/-- One import declaration entry. -/
structure ImportSpec where
  name : Option Ident
  dot : Bool
  path : Option String

/-- One declared type. -/
structure TypeSpec where
  span : Span
  name : Option Ident
  generic : Bool
  isAlias : Bool
  type : TypeExpr

/-- The receiver clause of a method. -/
structure Receiver where
  span : Span
  param : Option Param

/-- One function or method. -/
structure FuncDecl where
  span : Span
  receiver : Option Receiver
  name : Option Ident
  generic : Bool
  params : ParamList
  result : Result

/-- The declarations of one source file. -/
structure SourceFile where
  package : Option Ident
  imports : List ImportSpec
  types : List TypeSpec
  funcs : List FuncDecl

/-- What an element of a syntax tree is for the node around it. -/
inductive Part where
  | token (token : Token)
  | name (ident : Ident)
  | type (type : TypeExpr)
  | typeArgs (args : List TypeExpr)
  | typeParams
  | arrayLength (length : String)
  | params (list : ParamList)
  | param (param : Param)
  | result (result : Result)
  | field (field : FieldDecl)
  | elem (elem : Elem)
  | receiver (receiver : Receiver)
  | packageClause (name : Option Ident)
  | importSpec (spec : ImportSpec)
  | importDecl (specs : List ImportSpec)
  | typeSpec (spec : TypeSpec)
  | typeDecl (specs : List TypeSpec)
  | funcDecl (decl : FuncDecl)
  | other

namespace Part

/-- The token that a part is. -/
def token? : Part → Option Token
  | .token found => some found
  | _ => none

/-- The name that a part is. -/
def name? : Part → Option Ident
  | .name found => some found
  | _ => none

/-- The type expression that a part is. -/
def type? : Part → Option TypeExpr
  | .type found => some found
  | _ => none

/-- The type arguments that a part is. -/
def typeArgs? : Part → Option (List TypeExpr)
  | .typeArgs found => some found
  | _ => none

/-- The array length that a part is. -/
def arrayLength? : Part → Option String
  | .arrayLength found => some found
  | _ => none

/-- The parameter list that a part is. -/
def params? : Part → Option ParamList
  | .params found => some found
  | _ => none

/-- The parameter that a part is. -/
def param? : Part → Option Param
  | .param found => some found
  | _ => none

/-- The result clause that a part is. -/
def result? : Part → Option Result
  | .result found => some found
  | _ => none

/-- The field declaration that a part is. -/
def field? : Part → Option FieldDecl
  | .field found => some found
  | _ => none

/-- The interface element that a part is. -/
def elem? : Part → Option Elem
  | .elem found => some found
  | _ => none

/-- The receiver that a part is. -/
def receiver? : Part → Option Receiver
  | .receiver found => some found
  | _ => none

/-- The package name that a part declares. -/
def packageClause? : Part → Option (Option Ident)
  | .packageClause found => some found
  | _ => none

/-- The import that a part is. -/
def importSpec? : Part → Option ImportSpec
  | .importSpec found => some found
  | _ => none

/-- The declared type that a part is. -/
def typeSpec? : Part → Option TypeSpec
  | .typeSpec found => some found
  | _ => none

/-- The imports that a part declares. -/
def imports : Part → List ImportSpec
  | .importDecl found => found
  | _ => []

/-- The types that a part declares. -/
def types : Part → List TypeSpec
  | .typeDecl found => found
  | _ => []

/-- The function that a part declares. -/
def funcDecl? : Part → Option FuncDecl
  | .funcDecl found => some found
  | _ => none

/-- Whether a part is a token of a kind. -/
def isToken
    (kind : Kind)
    (part : Part) :
    Bool :=
  part.token?.any (·.kind = kind)

/-- Whether a part is a list of type parameters. -/
def isTypeParams : Part → Bool
  | .typeParams => true
  | _ => false

end Part

namespace Read

/-- The identifier that a token spells. -/
def ident
    (token : Token) :
    Ident :=
  ⟨token.spelling, ⟨token.offset, token.stop⟩⟩

/-- The identifiers directly among the parts. -/
def idents
    (parts : List Part) :
    List Ident :=
  ((parts.filterMap Part.token?).filter (·.kind = .ident)).map ident

/-- A name: its identifier, or an empty one at the span of the node. -/
def name
    (span : Span)
    (parts : List Part) :
    Ident :=
  (idents parts).head?.getD ⟨"", span⟩

/-- The type expression at an index among the parts; it is missing from the node's start on. -/
def typeAt
    (index : Nat)
    (span : Span)
    (parts : List Part) :
    TypeExpr :=
  (parts.filterMap Part.type?)[index]?.getD (.missing span.start)

/-- The first parameter list among the parts. -/
def params
    (parts : List Part) :
    ParamList :=
  (parts.findSome? Part.params?).getD .absent

/-- The first result clause among the parts. -/
def result
    (parts : List Part) :
    Result :=
  (parts.findSome? Part.result?).getD .absent

/-- A type name with its qualifier, if it has exactly one, and its arguments. -/
def typeName
    (span : Span)
    (parts : List Part) :
    TypeExpr :=
  let found := idents parts
  let qualifier :=
    match found with
    | [qualifier, _] => some qualifier
    | _ => none
  let args := parts.findSome? Part.typeArgs?
  .name span qualifier found.getLast? args.isSome (args.getD [])

/-- An array length without its white space. -/
def arrayLength
    (parts : List Part) :
    String :=
  let text := (parts.filterMap Part.token?).flatMap Token.text
  String.ofList (text.filter fun character => !Text.isBlank character)

/-- The direction that the arrow of a channel type gives by its place. -/
def chanDirection
    (parts : List Part) :
    ChanDirection :=
  let kinds := (parts.filterMap Part.token?).map Token.kind
  match kinds.filter fun kind => kind = .arrow || kind = .chanKeyword with
  | [.arrow, .chanKeyword] => .receive
  | [.chanKeyword, .arrow] => .send
  | _ => .both

/-- The content of a result clause. -/
def resultClause
    (span : Span)
    (parts : List Part) :
    Result :=
  match parts.findSome? Part.params? with
  | some list => .list list
  | none => .single (typeAt 0 span parts)

/-- Whether a character is one of the quotes around an import path. -/
def isPathQuote
    (character : Char) :
    Bool :=
  character == '"' || character == '\x60'

/-- A text without the quotes at its ends. -/
def unquoted
    (text : List Char) :
    List Char :=
  ((text.dropWhile isPathQuote).reverse.dropWhile isPathQuote).reverse

/-- One import. -/
def importSpec
    (parts : List Part) :
    ImportSpec :=
  { name := parts.findSome? Part.name?
    dot := parts.any (Part.isToken .dot)
    path :=
      ((parts.filterMap Part.token?).find? (·.kind = .string)).map fun token =>
        String.ofList (unquoted token.text) }

/-- One declared type. -/
def typeSpec
    (span : Span)
    (parts : List Part) :
    TypeSpec :=
  { span
    name := parts.findSome? Part.name?
    generic := parts.any Part.isTypeParams
    isAlias := parts.any (Part.isToken .equals)
    type := typeAt 0 span parts }

/-- One function or method. -/
def funcDecl
    (span : Span)
    (parts : List Part) :
    FuncDecl :=
  { span
    receiver := parts.findSome? Part.receiver?
    name := parts.findSome? Part.name?
    generic := parts.any Part.isTypeParams
    params := params parts
    result := result parts }

/-- What a node of a kind is for the node around it, given the parts of its children. -/
def node
    (kind : Kind)
    (span : Span)
    (parts : List Part) :
    Part :=
  match kind with
  | .name => .name (name span parts)
  | .typeName => .type (typeName span parts)
  | .typeArgs => .typeArgs (parts.filterMap Part.type?)
  | .typeParams => .typeParams
  | .pointerType => .type (.pointer span (typeAt 0 span parts))
  | .sliceType => .type (.slice span (typeAt 0 span parts))
  | .arrayType =>
      .type (.array span ((parts.findSome? Part.arrayLength?).getD "") (typeAt 0 span parts))
  | .arrayLength => .arrayLength (arrayLength parts)
  | .mapType => .type (.map span (typeAt 0 span parts) (typeAt 1 span parts))
  | .chanType => .type (.chan span (chanDirection parts) (typeAt 0 span parts))
  | .funcType => .type (.func span (params parts) (result parts))
  | .structType => .type (.struct span (parts.filterMap Part.field?))
  | .interfaceType => .type (.interface span (parts.filterMap Part.elem?))
  | .parenType => .type (.paren span (typeAt 0 span parts))
  | .paramList => .params (.list span (parts.filterMap Part.param?))
  | .param =>
      .param (.mk span (parts.findSome? Part.name?) (parts.any (Part.isToken .ellipsis))
        (typeAt 0 span parts))
  | .result => .result (resultClause span parts)
  | .fieldDecl =>
      .field (.mk span (parts.filterMap Part.name?) (parts.any (Part.isToken .star))
        (typeAt 0 span parts))
  | .methodSpec =>
      .elem (.method span (parts.findSome? Part.name?) (params parts) (result parts))
  | .embeddedElem => .elem (.embedded span (typeAt 0 span parts))
  | .typeSetElem => .elem (.typeSet span)
  | .receiver =>
      .receiver ⟨span, (parts.findSome? Part.params?).bind fun list => list.entries.head?⟩
  | .packageClause => .packageClause (parts.findSome? Part.name?)
  | .importSpec => .importSpec (importSpec parts)
  | .importDecl => .importDecl (parts.filterMap Part.importSpec?)
  | .typeSpec => .typeSpec (typeSpec span parts)
  | .typeDecl => .typeDecl (parts.filterMap Part.typeSpec?)
  | .funcDecl => .funcDecl (funcDecl span parts)
  | _ => .other

end Read

namespace Tree

mutual

/-- What a tree is for the node around it. -/
def part : Tree → Part
  | .leaf token => .token token
  | .node kind span children => Read.node kind span (forestParts children)

/-- What neighbouring trees are for the node around them. -/
def forestParts : List Tree → List Part
  | [] => []
  | tree :: rest => tree.part :: forestParts rest

end

/-- The direct children of a tree. -/
def children : Tree → List Tree
  | .leaf _ => []
  | .node _ _ children => children

end Tree

namespace SourceFile

/-- The declarations among the parts of a source file. -/
def ofParts
    (parts : List Part) :
    SourceFile :=
  { package := (parts.findSome? Part.packageClause?).join
    imports := parts.flatMap Part.imports
    types := parts.flatMap Part.types
    funcs := parts.filterMap Part.funcDecl? }

/-- The declarations that a tree with a source file at its root holds. -/
def ofTree
    (tree : Tree) :
    SourceFile :=
  ofParts (Tree.forestParts tree.children)

end SourceFile

end Implementers.Syntax
