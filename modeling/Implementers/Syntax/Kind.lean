namespace Implementers.Syntax

/-!
# Kinds of tokens and nodes

One enumeration names every kind of token and of node in the syntax tree of a Go source file.  The
declaration order is the numbering of the kinds.
-/

/-- What a token or a node of the syntax tree is. -/
inductive Kind where
  | whitespace
  | lineComment
  | blockComment
  | newline
  | ident
  | int
  | float
  | imaginary
  | rune
  | string
  | leftBrace
  | rightBrace
  | leftBracket
  | rightBracket
  | leftParen
  | rightParen
  | semicolon
  | colon
  | dot
  | ellipsis
  | comma
  | equals
  | colonEquals
  | star
  | arrow
  | tilde
  | pipe
  | plusPlus
  | minusMinus
  | operator
  | breakKeyword
  | caseKeyword
  | chanKeyword
  | constKeyword
  | continueKeyword
  | defaultKeyword
  | deferKeyword
  | elseKeyword
  | fallthroughKeyword
  | forKeyword
  | funcKeyword
  | goKeyword
  | gotoKeyword
  | ifKeyword
  | importKeyword
  | interfaceKeyword
  | mapKeyword
  | packageKeyword
  | rangeKeyword
  | returnKeyword
  | selectKeyword
  | structKeyword
  | switchKeyword
  | typeKeyword
  | varKeyword
  | sourceFile
  | packageClause
  | importDecl
  | importSpec
  | typeDecl
  | typeSpec
  | typeParams
  | funcDecl
  | receiver
  | paramList
  | param
  | result
  | block
  | valueDecl
  | name
  | typeName
  | typeArgs
  | pointerType
  | sliceType
  | arrayType
  | arrayLength
  | mapType
  | chanType
  | funcType
  | structType
  | fieldDecl
  | interfaceType
  | methodSpec
  | embeddedElem
  | typeSetElem
  | parenType
  | error
  deriving Repr, DecidableEq

namespace Kind

/-- Every kind, in the order of its number. -/
def all : List Kind :=
  [ whitespace, lineComment, blockComment, newline,
    ident, int, float, imaginary, rune, string,
    leftBrace, rightBrace, leftBracket, rightBracket, leftParen, rightParen,
    semicolon, colon, dot, ellipsis, comma, equals, colonEquals, star, arrow, tilde, pipe,
    plusPlus, minusMinus, operator,
    breakKeyword, caseKeyword, chanKeyword, constKeyword, continueKeyword, defaultKeyword,
    deferKeyword, elseKeyword, fallthroughKeyword, forKeyword, funcKeyword, goKeyword, gotoKeyword,
    ifKeyword, importKeyword, interfaceKeyword, mapKeyword, packageKeyword, rangeKeyword,
    returnKeyword, selectKeyword, structKeyword, switchKeyword, typeKeyword, varKeyword,
    sourceFile, packageClause, importDecl, importSpec, typeDecl, typeSpec, typeParams, funcDecl,
    receiver, paramList, param, result, block, valueDecl, name,
    typeName, typeArgs, pointerType, sliceType, arrayType, arrayLength, mapType, chanType,
    funcType, structType, fieldDecl, interfaceType, methodSpec, embeddedElem, typeSetElem,
    parenType, error ]

/-- The kind with a number, if there is one. -/
def ofNumber?
    (number : Nat) :
    Option Kind :=
  all[number]?

/-- The name under which a kind is shown. -/
def label : Kind → String
  | whitespace => "WHITESPACE"
  | lineComment => "LINE_COMMENT"
  | blockComment => "BLOCK_COMMENT"
  | newline => "NEWLINE"
  | ident => "IDENT"
  | int => "INT"
  | float => "FLOAT"
  | imaginary => "IMAGINARY"
  | rune => "RUNE"
  | string => "STRING"
  | leftBrace => "L_BRACE"
  | rightBrace => "R_BRACE"
  | leftBracket => "L_BRACKET"
  | rightBracket => "R_BRACKET"
  | leftParen => "L_PAREN"
  | rightParen => "R_PAREN"
  | semicolon => "SEMICOLON"
  | colon => "COLON"
  | dot => "DOT"
  | ellipsis => "ELLIPSIS"
  | comma => "COMMA"
  | equals => "EQ"
  | colonEquals => "COLON_EQ"
  | star => "STAR"
  | arrow => "ARROW"
  | tilde => "TILDE"
  | pipe => "PIPE"
  | plusPlus => "PLUS_PLUS"
  | minusMinus => "MINUS_MINUS"
  | operator => "OPERATOR"
  | breakKeyword => "BREAK_KW"
  | caseKeyword => "CASE_KW"
  | chanKeyword => "CHAN_KW"
  | constKeyword => "CONST_KW"
  | continueKeyword => "CONTINUE_KW"
  | defaultKeyword => "DEFAULT_KW"
  | deferKeyword => "DEFER_KW"
  | elseKeyword => "ELSE_KW"
  | fallthroughKeyword => "FALLTHROUGH_KW"
  | forKeyword => "FOR_KW"
  | funcKeyword => "FUNC_KW"
  | goKeyword => "GO_KW"
  | gotoKeyword => "GOTO_KW"
  | ifKeyword => "IF_KW"
  | importKeyword => "IMPORT_KW"
  | interfaceKeyword => "INTERFACE_KW"
  | mapKeyword => "MAP_KW"
  | packageKeyword => "PACKAGE_KW"
  | rangeKeyword => "RANGE_KW"
  | returnKeyword => "RETURN_KW"
  | selectKeyword => "SELECT_KW"
  | structKeyword => "STRUCT_KW"
  | switchKeyword => "SWITCH_KW"
  | typeKeyword => "TYPE_KW"
  | varKeyword => "VAR_KW"
  | sourceFile => "SOURCE_FILE"
  | packageClause => "PACKAGE_CLAUSE"
  | importDecl => "IMPORT_DECL"
  | importSpec => "IMPORT_SPEC"
  | typeDecl => "TYPE_DECL"
  | typeSpec => "TYPE_SPEC"
  | typeParams => "TYPE_PARAMS"
  | funcDecl => "FUNC_DECL"
  | receiver => "RECEIVER"
  | paramList => "PARAM_LIST"
  | param => "PARAM"
  | result => "RESULT"
  | block => "BLOCK"
  | valueDecl => "VALUE_DECL"
  | name => "NAME"
  | typeName => "TYPE_NAME"
  | typeArgs => "TYPE_ARGS"
  | pointerType => "POINTER_TYPE"
  | sliceType => "SLICE_TYPE"
  | arrayType => "ARRAY_TYPE"
  | arrayLength => "ARRAY_LEN"
  | mapType => "MAP_TYPE"
  | chanType => "CHAN_TYPE"
  | funcType => "FUNC_TYPE"
  | structType => "STRUCT_TYPE"
  | fieldDecl => "FIELD_DECL"
  | interfaceType => "INTERFACE_TYPE"
  | methodSpec => "METHOD_SPEC"
  | embeddedElem => "EMBEDDED_ELEM"
  | typeSetElem => "TYPE_SET_ELEM"
  | parenType => "PAREN_TYPE"
  | error => "ERROR"

/-- Whether a token separates others without a meaning of its own. -/
def isTrivia : Kind → Bool
  | whitespace | lineComment | blockComment => true
  | _ => false

/-- Whether a token is a keyword. -/
def isKeyword : Kind → Bool
  | breakKeyword | caseKeyword | chanKeyword | constKeyword | continueKeyword | defaultKeyword
  | deferKeyword | elseKeyword | fallthroughKeyword | forKeyword | funcKeyword | goKeyword
  | gotoKeyword | ifKeyword | importKeyword | interfaceKeyword | mapKeyword | packageKeyword
  | rangeKeyword | returnKeyword | selectKeyword | structKeyword | switchKeyword | typeKeyword
  | varKeyword => true
  | _ => false

/-- Whether a token ends a statement or a declaration. -/
def isTerminator : Kind → Bool
  | semicolon | newline => true
  | _ => false

/-- Whether a token is a literal. -/
def isLiteral : Kind → Bool
  | int | float | imaginary | rune | string => true
  | _ => false

/-- Whether a newline directly after this token ends the statement. -/
def triggersSemicolon : Kind → Bool
  | ident | int | float | imaginary | rune | string
  | breakKeyword | continueKeyword | fallthroughKeyword | returnKeyword
  | plusPlus | minusMinus | rightParen | rightBracket | rightBrace => true
  | _ => false

/-- Whether a token can begin a type expression. -/
def startsType : Kind → Bool
  | ident | star | leftBracket | leftParen | arrow
  | mapKeyword | chanKeyword | funcKeyword | structKeyword | interfaceKeyword => true
  | _ => false

/-- Whether a node is a type expression. -/
def isTypeExpression : Kind → Bool
  | typeName | pointerType | sliceType | arrayType | mapType | chanType
  | funcType | structType | interfaceType | parenType => true
  | _ => false

/-- The kind that closes a bracket of this kind. -/
def closing? : Kind → Option Kind
  | leftBrace => some rightBrace
  | leftBracket => some rightBracket
  | leftParen => some rightParen
  | _ => none

end Kind

end Implementers.Syntax
