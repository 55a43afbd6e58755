import Implementers.Syntax.Lexeme
import Implementers.Text.LineIndex

namespace Implementers.Syntax

/-!
# Tokens

A token is a lexeme at its place in the source.  A newline ends a statement when the last token
before it that is not trivia can end one; only then it is a token of kind `newline`, and otherwise
it is white space.  A byte order mark at the very beginning is white space.
-/

/-- A piece of source text with its kind and its offset in bytes. -/
structure Token where
  kind : Kind
  text : List Char
  offset : Nat
  deriving Repr, DecidableEq

namespace Token

/-- The text of a token as a string. -/
def spelling
    (token : Token) :
    String :=
  String.ofList token.text

/-- The offset just behind a token. -/
def stop
    (token : Token) :
    Nat :=
  token.offset + Text.byteLength token.text

/-- The kind of a lexeme's token, when `pending` says whether a newline would end a statement. -/
def kindOf
    (pending : Bool)
    (lexeme : Lexeme) :
    Kind :=
  if lexeme.kind = .newline && !pending then .whitespace else lexeme.kind

/-- Whether a newline would end a statement behind a token of this kind. -/
def pendingAfter
    (pending : Bool)
    (kind : Kind) :
    Bool :=
  if kind.isTrivia then pending else kind.triggersSemicolon

/-- The tokens of a list of lexemes that begins at an offset. -/
def ofLexemes
    (offset : Nat)
    (pending : Bool) :
    List Lexeme → List Token
  | [] => []
  | lexeme :: rest =>
      let kind := kindOf pending lexeme
      ⟨kind, lexeme.text, offset⟩ ::
        ofLexemes (offset + Text.byteLength lexeme.text) (pendingAfter pending kind) rest

/-- The byte order mark, which may stand at the very beginning of a source text. -/
def byteOrderMark : Char := '\uFEFF'

/-- The lexemes of a whole source text. -/
def sourceLexemes : List Char → List Lexeme
  | [] => []
  | first :: rest =>
      if first == byteOrderMark then
        ⟨.whitespace, [first]⟩ :: Lexeme.ofText rest
      else
        Lexeme.ofText (first :: rest)

/-- The tokens of a source text. -/
def ofSource
    (text : String) :
    List Token :=
  ofLexemes 0 false (sourceLexemes text.toList)

end Token

end Implementers.Syntax
