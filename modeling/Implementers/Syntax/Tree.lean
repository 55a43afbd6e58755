import Implementers.Syntax.Token

namespace Implementers.Syntax

/-!
# Syntax trees

The leaves of a syntax tree are the tokens of the source, trivia included, so the tree loses
nothing of the text.  Every inner node has a kind and the span of source that it covers.
-/

/-- A stretch of source text between two byte offsets. -/
structure Span where
  start : Nat
  stop : Nat
  deriving Repr, DecidableEq

/-- A lossless syntax tree. -/
inductive Tree where
  | leaf (token : Token)
  | node (kind : Kind) (span : Span) (children : List Tree)
  deriving Repr

namespace Tree

mutual

/-- The tokens of a tree from left to right. -/
def tokens : Tree → List Token
  | .leaf token => [token]
  | .node _ _ children => forestTokens children

/-- The tokens of neighbouring trees from left to right. -/
def forestTokens : List Tree → List Token
  | [] => []
  | tree :: rest => tree.tokens ++ forestTokens rest

end

/-- The source text that a tree covers. -/
def text
    (tree : Tree) :
    List Char :=
  tree.tokens.flatMap Token.text

/-- The span of source that a tree covers. -/
def span : Tree → Span
  | .leaf token => ⟨token.offset, token.stop⟩
  | .node _ span _ => span

/-- One line of a tree's outline: how deep an element lies, and the element. -/
structure OutlineEntry where
  depth : Nat
  kind : Kind
  span : Span
  spelling : Option String
  deriving Repr, DecidableEq

mutual

/-- The elements of a tree in preorder; tokens carry their text. -/
def outline
    (depth : Nat) :
    Tree → List OutlineEntry
  | .leaf token => [⟨depth, token.kind, ⟨token.offset, token.stop⟩, some token.spelling⟩]
  | .node kind span children => ⟨depth, kind, span, none⟩ :: forestOutline (depth + 1) children

/-- The elements of neighbouring trees in preorder. -/
def forestOutline
    (depth : Nat) :
    List Tree → List OutlineEntry
  | [] => []
  | tree :: rest => tree.outline depth ++ forestOutline depth rest

end

end Tree

end Implementers.Syntax
