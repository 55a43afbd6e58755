import Implementers.Syntax.Cursor

namespace Implementers.Syntax.Grammar

/-!
# The grammar of Go declarations

Declarations and type expressions are structured; function bodies and the declarations of variables
and constants are taken as balanced runs of tokens.  Faults are noted and passed over at the next
statement.

Every rule that mentions type expressions takes the rule for them as a parameter.  `typeWithin`
closes the circle: it allows a given depth of type expressions inside each other, and since every
inner one begins behind a token of the outer one, as many levels as there are tokens are never
used up.
-/

open Cursor

/-- Take all terminators that come next. -/
def skipTerminators : Rule :=
  repeatWhile (·.seesAny Kind.isTerminator) bump

/-- Whether a kind ends a statement or closes the list around it. -/
def endsItem
    (closing : Option Kind)
    (kind : Kind) :
    Bool :=
  kind.isTerminator || closing == some kind

/-- Take a terminator; the end of the source and a following closing bracket stand for one. -/
def terminator
    (closing : Option Kind)
    (cursor : Cursor) :
    Cursor :=
  if cursor.seesAny Kind.isTerminator then
    cursor.bump
  else if cursor.atEnd || cursor.seesAny (closing == some ·) then
    cursor
  else
    let recovered := cursor.recover .terminator (endsItem closing)
    if recovered.seesAny Kind.isTerminator then recovered.bump else recovered

/-- Take an identifier as a name. -/
def name
    (cursor : Cursor) :
    Cursor :=
  if cursor.sees .ident then
    cursor.node .name bump
  else
    cursor.report .identifier

/-- Whether a list goes on: neither its closing bracket nor the end of the source comes next. -/
def goesOn
    (closing : Kind)
    (cursor : Cursor) :
    Bool :=
  !cursor.atEnd && !cursor.sees closing

/-- One item of a list with its terminator. -/
def listed
    (closing : Kind)
    (item : Rule) :
    Rule :=
  fun cursor => terminator (some closing) (item cursor)

/-- Take items, each with its terminator, up to a closing bracket, and the bracket. -/
def items
    (closing : Kind)
    (fault : SyntaxFault)
    (item : Rule)
    (cursor : Cursor) :
    Cursor :=
  (skipTerminators cursor)
    |> repeatWhile (goesOn closing) (listed closing item)
    |> expect closing fault

/-! ## Signatures -/

/-- Whether the identifier at the cursor names a parameter whose type follows. -/
def namesParam
    (cursor : Cursor) :
    Bool :=
  match cursor.peek? 1 with
  | none => false
  | some kind =>
      match kind with
      | .comma | .rightParen | .dot => false
      | .leftBracket => cursor.identThenArrayType
      | .ellipsis => true
      | _ => kind.startsType

/--
One entry of a parameter list.  Whether a lone identifier is a name or a type depends on the other
entries, which only the reader of the list can tell.
-/
def param
    (typeRule : Rule) :
    Rule :=
  node .param fun opened =>
    (if opened.sees .ident && namesParam opened then name opened else opened)
      |> eat .ellipsis
      |> typeRule

/-- One turn through a list: another turn if a comma follows what was taken. -/
def commaTurn
    (taken : Cursor) :
    Turn Unit :=
  if taken.sees .comma then .again () taken.bump else .done () taken

/-- One turn through a parameter list. -/
def paramTurn
    (typeRule : Rule)
    (_ : Unit)
    (cursor : Cursor) :
    Turn Unit :=
  if cursor.atEnd || cursor.sees .rightParen then
    .done () cursor
  else
    commaTurn (param typeRule cursor)

/-- A parenthesised list of parameters or results. -/
def paramList
    (typeRule : Rule) :
    Rule :=
  node .paramList fun opened =>
    let taken := (loop (paramTurn typeRule) () opened.bump).2
    if taken.sees .rightParen then
      taken.bump
    else
      eat .rightParen (taken.recover (.symbol ")") (· == .rightParen))

/-- The parameters and the results of a function. -/
def signature
    (typeRule : Rule)
    (cursor : Cursor) :
    Cursor :=
  if cursor.sees .leftParen then
    let taken := paramList typeRule cursor
    if taken.sees .leftParen then
      taken.node .result (paramList typeRule)
    else if taken.seesAny Kind.startsType then
      taken.node .result typeRule
    else
      taken
  else
    cursor.report (.symbol "(")

/-! ## Type expressions -/

/-- One turn through a list of type arguments. -/
def typeArgTurn
    (typeRule : Rule)
    (_ : Unit)
    (cursor : Cursor) :
    Turn Unit :=
  if cursor.atEnd || cursor.sees .rightBracket then
    .done () cursor
  else if cursor.seesAny Kind.startsType then
    commaTurn (typeRule cursor)
  else
    .done () ((typeRule cursor).recover .typeArgument (· == .rightBracket))

/-- A type name: an identifier, perhaps qualified, perhaps with type arguments. -/
def typeName
    (typeRule : Rule) :
    Rule :=
  node .typeName fun opened =>
    let first := opened.bump
    let named := if first.sees .dot then expect .ident .identifierAfterDot first.bump else first
    if named.sees .leftBracket && named.peek? 1 != some .rightBracket then
      named.node .typeArgs fun bracket =>
        expect .rightBracket (.symbol "]") (loop (typeArgTurn typeRule) () bracket.bump).2
    else
      named

/-- Take the next token on the way to the bracket that closes an array length, which stays. -/
def arrayLengthTurn
    (depth : Nat)
    (cursor : Cursor) :
    Turn Nat :=
  match cursor.peek? 0 with
  | none => .done depth cursor
  | some .rightBracket =>
      match depth with
      | 0 => .done 0 cursor
      | depth + 1 => .again depth cursor.bump
  | some .leftBracket => .again (depth + 1) cursor.bump
  | some _ => .again depth cursor.bump

/-- A slice type, or an array type with its length. -/
def sliceOrArrayType
    (typeRule : Rule)
    (cursor : Cursor) :
    Cursor :=
  if cursor.peek? 1 == some .rightBracket then
    cursor.node .sliceType fun opened => typeRule opened.bump.bump
  else
    cursor.node .arrayType fun opened =>
      opened.bump
        |> node .arrayLength (fun inner => (loop arrayLengthTurn 0 inner).2)
        |> expect .rightBracket (.symbol "]")
        |> typeRule

/-- A map type. -/
def mapType
    (typeRule : Rule) :
    Rule :=
  node .mapType fun opened =>
    opened.bump
      |> expect .leftBracket (.symbol "[")
      |> typeRule
      |> expect .rightBracket (.symbol "]")
      |> typeRule

/-- A channel type of any direction. -/
def chanType
    (typeRule : Rule) :
    Rule :=
  node .chanType fun opened =>
    typeRule <|
      if opened.sees .arrow then
        expect .chanKeyword (.symbol "chan") opened.bump
      else
        eat .arrow opened.bump

/-- A keyword followed by items between braces. -/
def bracedType
    (kind : Kind)
    (item : Rule) :
    Rule :=
  node kind fun opened =>
    let taken := opened.bump
    if taken.sees .leftBrace then
      items .rightBrace (.symbol "\x7d") item taken.bump
    else
      taken.report (.symbol "\x7b")

/-- Whether the identifier at the cursor is an embedded field and not the name of a field. -/
def embedsField
    (cursor : Cursor) :
    Bool :=
  match cursor.peek? 1 with
  | none => false
  | some kind =>
      match kind with
      | .semicolon | .newline | .rightBrace | .string | .dot => true
      | .leftBracket => !cursor.identThenArrayType
      | _ => false

/-- A comma and a name. -/
def nextName : Rule :=
  fun cursor => name cursor.bump

/-- Take the names of a field that follow its first one. -/
def moreNames : Rule :=
  repeatWhile (·.sees .comma) nextName

/-- One field declaration of a struct type. -/
def fieldDecl
    (typeRule : Rule) :
    Rule :=
  node .fieldDecl fun opened =>
    eat .string <|
      if opened.sees .star then
        let starred := opened.bump
        if starred.sees .ident then typeName typeRule starred else starred.report .embeddedTypeName
      else if opened.sees .ident then
        if embedsField opened then
          typeName typeRule opened
        else
          typeRule (moreNames (name opened))
      else
        opened.recover .fieldDeclaration (endsItem (some .rightBrace))

/-- Take a term of an interface element, and tell whether the terms so far form a type set. -/
def termTurn
    (typeRule : Rule)
    (typeSet : Bool)
    (cursor : Cursor) :
    Turn Bool :=
  let marked := typeSet || cursor.sees .tilde
  let term := eat .tilde cursor
  if term.seesAny Kind.startsType then
    let taken := typeRule term
    if taken.sees .pipe then .again true taken.bump else .done marked taken
  else
    .done marked ((typeRule term).recover .interfaceElement (endsItem (some .rightBrace)))

/-- One element of an interface type: a method, an embedded type or a set of types. -/
def interfaceElem
    (typeRule : Rule)
    (cursor : Cursor) :
    Cursor :=
  if cursor.sees .ident && cursor.peek? 1 == some .leftParen then
    cursor.node .methodSpec fun opened => signature typeRule (name opened)
  else
    -- Whether the element is a set of types shows only behind its first term.
    let begun := cursor.skipTrivia
    let (typeSet, taken) := loop (termTurn typeRule) false begun
    closeNode (taken.openAt begun.mark (if typeSet then .typeSetElem else .embeddedElem))

/-- A type expression, given the rule for the type expressions inside it. -/
def typeExpr
    (typeRule : Rule)
    (cursor : Cursor) :
    Cursor :=
  match cursor.peek? 0 with
  | some .ident => typeName typeRule cursor
  | some .star => cursor.node .pointerType fun opened => typeRule opened.bump
  | some .leftBracket => sliceOrArrayType typeRule cursor
  | some .mapKeyword => mapType typeRule cursor
  | some .chanKeyword | some .arrow => chanType typeRule cursor
  | some .funcKeyword => cursor.node .funcType fun opened => signature typeRule opened.bump
  | some .structKeyword => bracedType .structType (fieldDecl typeRule) cursor
  | some .interfaceKeyword => bracedType .interfaceType (interfaceElem typeRule) cursor
  | some .leftParen =>
      cursor.node .parenType fun opened =>
        expect .rightParen (.symbol ")") (typeRule opened.bump)
  | _ => cursor.report .typeExpression

/-- A type expression with at most a given number of type expressions inside each other. -/
def typeWithin : Nat → Rule
  | 0 => fun cursor => cursor.report .typeExpression
  | depth + 1 => typeExpr (typeWithin depth)

/-! ## Declarations -/

/-- A declaration of one item, or of a parenthesised group of items. -/
def groupedDecl
    (kind : Kind)
    (item : Rule)
    (cursor : Cursor) :
    Cursor :=
  terminator none <|
    cursor.node kind fun opened =>
      let taken := opened.bump
      if taken.sees .leftParen then
        items .rightParen (.symbol ")") item taken.bump
      else
        item taken

/-- The package clause. -/
def packageClause
    (cursor : Cursor) :
    Cursor :=
  terminator none (cursor.node .packageClause fun opened => name opened.bump)

/-- One import, with its explicit name or dot if it has one. -/
def importSpec : Rule :=
  node .importSpec fun opened =>
    let named := if opened.sees .ident then name opened else eat .dot opened
    if named.sees .string then
      named.bump
    else
      named.recover .importPath (endsItem (some .rightParen))

/-- Whether the bracket behind a declared type's name opens type parameters (`L[T any]`). -/
def declaresTypeParams
    (cursor : Cursor) :
    Bool :=
  cursor.peek? 1 == some .ident &&
    (cursor.peek? 2).any fun kind =>
      match kind with
      | .ident | .comma | .interfaceKeyword | .tilde | .leftBracket
      | .funcKeyword | .mapKeyword | .chanKeyword | .structKeyword => true
      | _ => false

/-- A list of type parameters, taken as a balanced run. -/
def typeParams : Rule :=
  node .typeParams bumpBalanced

/-- One declared type. -/
def typeSpec
    (typeRule : Rule) :
    Rule :=
  node .typeSpec fun opened =>
    if opened.sees .ident then
      let named := name opened
      (if named.sees .leftBracket && declaresTypeParams named then typeParams named else named)
        |> eat .equals
        |> typeRule
    else
      (name opened).recover .typeName (endsItem (some .rightParen))

/-- A function or a method with its body as a balanced run. -/
def funcDecl
    (typeRule : Rule)
    (cursor : Cursor) :
    Cursor :=
  terminator none <|
    cursor.node .funcDecl fun opened =>
      let taken := opened.bump
      let received :=
        if taken.sees .leftParen then taken.node .receiver (paramList typeRule) else taken
      if received.sees .ident then
        let named := name received
        let signed :=
          signature typeRule (if named.sees .leftBracket then typeParams named else named)
        if signed.sees .leftBrace then signed.node .block bumpBalanced else signed
      else
        (name received).recover .functionName Kind.isTerminator

/-- A balanced run of brackets, or one other token. -/
def tokenOrBrackets
    (cursor : Cursor) :
    Cursor :=
  if cursor.seesAny (·.closing?.isSome) then cursor.bumpBalanced else cursor.bump

/-- A declaration of variables or constants, taken as a run of tokens and balanced brackets. -/
def valueDecl
    (cursor : Cursor) :
    Cursor :=
  terminator none <|
    cursor.node .valueDecl fun opened =>
      repeatWhile (passesOver Kind.isTerminator) tokenOrBrackets opened.bump

/-- One top-level declaration, or a fault. -/
def declaration
    (typeRule : Rule)
    (cursor : Cursor) :
    Cursor :=
  match cursor.peek? 0 with
  | some .semicolon | some .newline => cursor.bump
  | some .importKeyword => groupedDecl .importDecl importSpec cursor
  | some .typeKeyword => groupedDecl .typeDecl (typeSpec typeRule) cursor
  | some .funcKeyword => funcDecl typeRule cursor
  | some .varKeyword | some .constKeyword => valueDecl cursor
  | _ => cursor.recover .declaration Kind.isTerminator

/-- What stands in a source file: a package clause and declarations. -/
def sourceFile
    (typeRule : Rule)
    (cursor : Cursor) :
    Cursor :=
  let begun := skipTerminators cursor
  (if begun.sees .packageKeyword then packageClause begun else begun.report .packageClause)
    |> repeatWhile (!·.atEnd) (declaration typeRule)
    |> skipTrivia

end Implementers.Syntax.Grammar
