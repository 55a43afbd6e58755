import Implementers.Syntax.Tree

namespace Implementers.Syntax

/-!
# Cursors

A cursor stands in a token stream: it holds the tokens that are still to come, the trees built so
far, the nodes that are open, and the faults found on the way.  Looking ahead skips trivia, and
taking a token takes the trivia before it as well.  Tokens only ever move from the front of `rest`
to the end of `built`, and closing a node puts the trees built since its opening below it, so no
token is lost.
-/

/-- What a source text lacks at some place. -/
inductive SyntaxFault where
  | packageClause
  | terminator
  | declaration
  | importPath
  | typeName
  | functionName
  | identifier
  | identifierAfterDot
  | typeExpression
  | typeArgument
  | fieldDeclaration
  | embeddedTypeName
  | interfaceElement
  | symbol (spelling : String)
  | closing (opening : Kind)
  deriving Repr, DecidableEq

namespace SyntaxFault

/-- The wording of a fault. -/
def message : SyntaxFault → String
  | packageClause => "expected 'package' clause"
  | terminator => "expected ';' or newline"
  | declaration => "expected declaration"
  | importPath => "expected import path"
  | typeName => "expected type name"
  | functionName => "expected function name"
  | identifier => "expected identifier"
  | identifierAfterDot => "expected identifier after '.'"
  | typeExpression => "expected type"
  | typeArgument => "expected type argument"
  | fieldDeclaration => "expected field declaration"
  | embeddedTypeName => "expected embedded type name"
  | interfaceElement => "expected interface element"
  | symbol spelling => "expected '" ++ spelling ++ "'"
  | closing opening => "unclosed " ++ opening.label

end SyntaxFault

/-- A fault and the span of source it points at. -/
structure SyntaxError where
  fault : SyntaxFault
  span : Span
  deriving Repr, DecidableEq

/-- A place among the trees built: an offset in the source, and how many trees stand before it. -/
structure Mark where
  offset : Nat
  count : Nat
  deriving Repr, DecidableEq

/-- A node that has been opened and not closed, and the place where it begins. -/
structure OpenNode where
  kind : Kind
  mark : Mark
  deriving Repr, DecidableEq

/-- A place in a token stream with what has been built, opened and found on the way there. -/
structure Cursor where
  rest : List Token
  built : Array Tree
  parents : List OpenNode
  errors : Array SyntaxError
  sourceLength : Nat
  deriving Repr

/-- A piece of grammar: it takes tokens at a cursor and builds their trees. -/
abbrev Rule := Cursor → Cursor

namespace Cursor

/-- Whether a token is trivia. -/
def isTrivia
    (token : Token) :
    Bool :=
  token.kind.isTrivia

/-- The tokens from the significant one at an index on. -/
def ahead : Nat → List Token → List Token
  | _, [] => []
  | index, token :: rest =>
      if isTrivia token then
        ahead index rest
      else
        match index with
        | 0 => token :: rest
        | index + 1 => ahead index rest

/-- The kind of the first significant token of a list. -/
def firstKind?
    (tokens : List Token) :
    Option Kind :=
  (ahead 0 tokens).head?.map Token.kind

/-- The kind of the significant token at an index behind the cursor. -/
def peek?
    (cursor : Cursor)
    (index : Nat) :
    Option Kind :=
  (ahead index cursor.rest).head?.map Token.kind

/-- Whether no significant token is left. -/
def atEnd
    (cursor : Cursor) :
    Bool :=
  (cursor.peek? 0).isNone

/-- Whether the next significant token has a kind. -/
def sees
    (cursor : Cursor)
    (kind : Kind) :
    Bool :=
  cursor.peek? 0 == some kind

/-- Whether the next significant token has a kind of a class. -/
def seesAny
    (cursor : Cursor)
    (belongs : Kind → Bool) :
    Bool :=
  (cursor.peek? 0).any belongs

/-- The offset of the next token, or the end of the source. -/
def offset
    (cursor : Cursor) :
    Nat :=
  match cursor.rest with
  | [] => cursor.sourceLength
  | token :: _ => token.offset

/-- The span of the next significant token, or the empty span at the end of the source. -/
def faultSpan
    (cursor : Cursor) :
    Span :=
  match ahead 0 cursor.rest with
  | [] => ⟨cursor.sourceLength, cursor.sourceLength⟩
  | token :: _ => ⟨token.offset, token.stop⟩

/-- Note a fault at the next significant token. -/
def report
    (cursor : Cursor)
    (fault : SyntaxFault) :
    Cursor :=
  { cursor with errors := cursor.errors.push ⟨fault, cursor.faultSpan⟩ }

/-- Take the trivia that comes next. -/
def skipTrivia
    (cursor : Cursor) :
    Cursor :=
  { cursor with
    rest := cursor.rest.dropWhile isTrivia
    built := cursor.built ++ (cursor.rest.takeWhile isTrivia).map Tree.leaf }

/-- Take the next significant token, if there is one, and the trivia before it. -/
def bump
    (cursor : Cursor) :
    Cursor :=
  let skipped := cursor.skipTrivia
  match skipped.rest with
  | [] => skipped
  | token :: rest => { skipped with rest, built := skipped.built.push (.leaf token) }

/-- Take the next significant token if it has a kind. -/
def eat
    (kind : Kind)
    (cursor : Cursor) :
    Cursor :=
  if cursor.sees kind then cursor.bump else cursor

/-- Take the next significant token if it has a kind; its absence is a fault. -/
def expect
    (kind : Kind)
    (fault : SyntaxFault)
    (cursor : Cursor) :
    Cursor :=
  if cursor.sees kind then cursor.bump else cursor.report fault

/-- The place among the trees built so far. -/
def mark
    (cursor : Cursor) :
    Mark :=
  ⟨cursor.offset, cursor.built.size⟩

/-- Open a node of a kind that begins at an earlier place. -/
def openAt
    (mark : Mark)
    (kind : Kind)
    (cursor : Cursor) :
    Cursor :=
  { cursor with parents := ⟨kind, mark⟩ :: cursor.parents }

/-- Open a node of a kind.  The trivia before the node stays outside. -/
def openNode
    (kind : Kind)
    (cursor : Cursor) :
    Cursor :=
  let begun := cursor.skipTrivia
  begun.openAt begun.mark kind

/-- Close the innermost open node: the trees built since it was opened become its children. -/
def closeNode
    (cursor : Cursor) :
    Cursor :=
  match cursor.parents with
  | [] => cursor
  | ⟨kind, mark⟩ :: outer =>
      let children := (cursor.built.extract mark.count).toList
      { cursor with
        built := (cursor.built.take mark.count).push
          (.node kind ⟨mark.offset, cursor.offset⟩ children)
        parents := outer }

/-- Build a node of a kind from what a rule takes. -/
def node
    (kind : Kind)
    (rule : Rule)
    (cursor : Cursor) :
    Cursor :=
  closeNode (rule (openNode kind cursor))

/-- What a turn through a loop comes to: another turn, or the end of the loop. -/
inductive Turn (σ : Type) where
  | again (state : σ) (cursor : Cursor)
  | done (state : σ) (cursor : Cursor)

/-- Take turns as long as they ask for another one, at most a given number of them. -/
def turns
    (turn : σ → Cursor → Turn σ) :
    Nat → σ → Cursor → σ × Cursor
  | 0, state, cursor => (state, cursor)
  | count + 1, state, cursor =>
      match turn state cursor with
      | .again next behind => turns turn count next behind
      | .done last behind => (last, behind)

/--
Take turns as long as they ask for another one.  A turn that asks for another has taken a token, so
there are never more turns than tokens to come and one.
-/
def loop
    (turn : σ → Cursor → Turn σ)
    (state : σ)
    (cursor : Cursor) :
    σ × Cursor :=
  turns turn (cursor.rest.length + 1) state cursor

/-- A turn that applies a rule and asks for another turn if a condition holds. -/
def whileTurn
    (condition : Cursor → Bool)
    (rule : Rule)
    (_ : Unit)
    (cursor : Cursor) :
    Turn Unit :=
  if condition cursor then .again () (rule cursor) else .done () cursor

/-- Apply a rule as long as a condition holds. -/
def repeatWhile
    (condition : Cursor → Bool)
    (rule : Rule)
    (cursor : Cursor) :
    Cursor :=
  (loop (whileTurn condition rule) () cursor).2

/-- Whether the next significant token is one that a recovery takes. -/
def passesOver
    (stops : Kind → Bool)
    (cursor : Cursor) :
    Bool :=
  !cursor.atEnd && !cursor.seesAny stops

/--
Note a fault, and take the tokens up to one of a recovery class into a node of kind `error`.  A
token of that class is taken itself if it comes first, so that some token is always taken.
-/
def recover
    (fault : SyntaxFault)
    (stops : Kind → Bool)
    (cursor : Cursor) :
    Cursor :=
  (cursor.report fault).node .error fun opened =>
    if opened.seesAny stops then
      opened.bump
    else
      opened.repeatWhile (passesOver stops) bump

/--
Take the next token on the way to the bracket that closes the `depth` open ones; the way ends behind
that bracket, or with a fault at the end of the source.
-/
def balancedTurn
    (opening closing : Kind)
    (depth : Nat)
    (cursor : Cursor) :
    Turn Nat :=
  match cursor.peek? 0 with
  | none => .done depth (cursor.report (.closing opening))
  | some kind =>
      if kind = opening then
        .again (depth + 1) cursor.bump
      else if kind = closing then
        if depth ≤ 1 then .done 0 cursor.bump else .again (depth - 1) cursor.bump
      else
        .again depth cursor.bump

/-- Take the balanced run of brackets that begins at the next token, or else that token. -/
def bumpBalanced
    (cursor : Cursor) :
    Cursor :=
  match cursor.peek? 0 with
  | none => cursor.bump
  | some opening =>
      match opening.closing? with
      | none => cursor.bump
      | some closing => (loop (balancedTurn opening closing) 0 cursor).2

/-- The tokens behind the bracket that closes `depth` more brackets than are opened in between. -/
def behindClosing?
    (opening closing : Kind) :
    Nat → List Token → Option (List Token)
  | _, [] => none
  | depth, token :: rest =>
      if token.kind = opening then
        behindClosing? opening closing (depth + 1) rest
      else if token.kind = closing then
        if depth ≤ 1 then some rest else behindClosing? opening closing (depth - 1) rest
      else
        behindClosing? opening closing depth rest

/--
Whether the identifier at the cursor is followed by a slice or array type (`s []int`,
`buffer [n]byte`) rather than by type arguments (`List[T]`).
-/
def identThenArrayType
    (cursor : Cursor) :
    Bool :=
  match ahead 1 cursor.rest with
  | [] => false
  | bracket :: behind =>
      bracket.kind = .leftBracket &&
        (firstKind? behind == some .rightBracket ||
          match behindClosing? .leftBracket .rightBracket 1 behind with
          | none => false
          | some after => (firstKind? after).any Kind.startsType)

end Cursor

end Implementers.Syntax
