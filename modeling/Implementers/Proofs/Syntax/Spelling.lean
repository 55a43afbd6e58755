import Implementers.Proofs.Scope.Relocation
import Implementers.Syntax.Lexeme

namespace Implementers.Syntax

/-!
# How type expressions are spelled

The forms that a type expression can take, apart from any source text, with their lexemes and with
what a reader of the source should make of them.  A form tells apart what the source tells apart, so
it also holds field tags and the terms of type sets, which a reader passes over.
-/

/-- Whether a text is an identifier and no keyword. -/
def isIdentifier : List Char → Bool
  | [] => false
  | first :: rest =>
      Lexeme.startsIdentifier first && rest.all Lexeme.continuesIdentifier &&
        (Lexeme.keywords.lookup (first :: rest)).isNone

/-- An identifier that is no keyword. -/
structure Identifier where
  text : List Char
  isIdentifier : isIdentifier text = true

/-- Whether a text is an integer literal: digits, or a zero with a radix mark and digits. -/
def isInteger : List Char → Bool
  | [] => false
  | first :: rest =>
      first.isDigit &&
        (rest.all Lexeme.isDecimalPart ||
          match rest with
          | [] => false
          | mark :: digits =>
              first == '0' && Lexeme.isRadixMark mark && !digits.isEmpty &&
                digits.all (Lexeme.isRadixPart mark))

/-- The length of an array type: an identifier or an integer literal. -/
inductive ArrayLength where
  | name (ident : Identifier)
  | number (text : List Char) (isInteger : isInteger text = true)

/-- Whether a text can stand between the quotes of a string literal with escapes. -/
def isQuotable : List Char → Bool
  | [] => true
  | '\\' :: character :: rest => character != '\n' && isQuotable rest
  | character :: rest =>
      character != '"' && character != '\n' && character != '\\' && isQuotable rest

/-- A string literal, with or without escapes. -/
inductive StringLiteral where
  | quoted (content : List Char) (isQuotable : isQuotable content = true)
  | raw (content : List Char) (unquoted : content.all (· != '\x60') = true)

mutual

/-- A type expression.  A name without type arguments has an empty list of them. -/
inductive TypeForm where
  | name (qualifier : Option Identifier) (ident : Identifier) (args : List TypeForm)
  | pointer (elem : TypeForm)
  | slice (elem : TypeForm)
  | array (length : ArrayLength) (elem : TypeForm)
  | map (key value : TypeForm)
  | chan (direction : ChanDirection) (elem : TypeForm)
  | func (params : List ParamForm) (result : ResultForm)
  | struct (fields : List FieldForm)
  | interface (elems : List ElemForm)
  | paren (inner : TypeForm)

/--
One entry of a parameter list.  A name that shares the type of the next entry is spelled like a type
name, and is an entry without a name of its own: only the other entries tell the two apart.
-/
inductive ParamForm where
  | mk (name : Option Identifier) (variadic : Bool) (type : TypeForm)

/-- The results of a function. -/
inductive ResultForm where
  | none
  | single (type : TypeForm)
  | list (params : List ParamForm)

/-- One field declaration of a struct type. -/
inductive FieldForm where
  | named
      (first : Identifier)
      (more : List Identifier)
      (type : TypeForm)
      (tag : Option StringLiteral)
  | embedded
      (starred : Bool)
      (qualifier : Option Identifier)
      (ident : Identifier)
      (args : List TypeForm)
      (tag : Option StringLiteral)

/-- One element of an interface type; a single term without a tilde embeds a type. -/
inductive ElemForm where
  | method (name : Identifier) (params : List ParamForm) (result : ResultForm)
  | terms (terms : TermsForm)

/-- The terms of an interface element, each with or without a tilde. -/
inductive TermsForm where
  | last (tilde : Bool) (type : TypeForm)
  | more (tilde : Bool) (type : TypeForm) (rest : TermsForm)

end

/-! ## Lexemes -/

namespace Lexeme

/-- The lexeme of a keyword or of a punctuation mark. -/
def ofKind
    (kind : Kind) :
    Lexeme :=
  ⟨kind, (((keywords ++ punctuation).find? (·.2 = kind)).map Prod.fst).getD []⟩

@[simp] theorem kind_ofKind
    (kind : Kind) :
    (ofKind kind).kind = kind :=
  rfl

/-- The lexeme of a line break. -/
def lineBreak : Lexeme :=
  ⟨.newline, ['\n']⟩

end Lexeme

namespace Identifier

/-- The lexeme of an identifier. -/
def lexeme
    (ident : Identifier) :
    Lexeme :=
  ⟨.ident, ident.text⟩

/-- An identifier as a reader sees it. -/
def ident
    (ident : Identifier) :
    Ident :=
  ⟨String.ofList ident.text, ⟨0, 0⟩⟩

/-- The lexemes of an identifier behind its qualifier. -/
def lexemesBehind
    (qualifier : Option Identifier)
    (ident : Identifier) :
    List Lexeme :=
  match qualifier with
  | none => [ident.lexeme]
  | some package => [package.lexeme, .ofKind .dot, ident.lexeme]

/-- The lexemes of identifiers, each behind a comma. -/
def lexemesBehindCommas
    (idents : List Identifier) :
    List Lexeme :=
  idents.flatMap fun ident => [.ofKind .comma, ident.lexeme]

end Identifier

namespace ArrayLength

/-- The lexeme of an array length. -/
def lexeme : ArrayLength → Lexeme
  | .name ident => ident.lexeme
  | .number text _ => ⟨.int, text⟩

/-- The text of an array length. -/
def text
    (length : ArrayLength) :
    String :=
  String.ofList length.lexeme.text

end ArrayLength

namespace StringLiteral

/-- The text of a string literal. -/
def text : StringLiteral → List Char
  | .quoted content _ => '"' :: (content ++ ['"'])
  | .raw content _ => '\x60' :: (content ++ ['\x60'])

/-- The lexeme of a string literal. -/
def lexeme
    (literal : StringLiteral) :
    Lexeme :=
  ⟨.string, literal.text⟩

end StringLiteral

/-- The lexemes in front of the element type of a channel. -/
def ChanDirection.lexemes : ChanDirection → List Lexeme
  | .both => [.ofKind .chanKeyword]
  | .send => [.ofKind .chanKeyword, .ofKind .arrow]
  | .receive => [.ofKind .arrow, .ofKind .chanKeyword]

/-- Pieces with commas between them. -/
def commaSeparated : List (List Lexeme) → List Lexeme
  | [] => []
  | first :: rest => first ++ rest.flatMap (.ofKind .comma :: ·)

/-- Pieces with commas between them and brackets around them; without any, there are no brackets. -/
def inBrackets
    (pieces : List (List Lexeme)) :
    List Lexeme :=
  if pieces.isEmpty then
    []
  else
    .ofKind .leftBracket :: (commaSeparated pieces ++ [.ofKind .rightBracket])

/-- How the items between braces are kept apart. -/
structure ItemStyle where
  opening : List Lexeme
  separator : Lexeme
  closing : List Lexeme

namespace ItemStyle

/-- Every item on a line of its own. -/
def lines : ItemStyle :=
  ⟨[.lineBreak], .lineBreak, [.lineBreak]⟩

/-- Items on one line. -/
def semicolons : ItemStyle :=
  ⟨[], .ofKind .semicolon, []⟩

/-- The style without what stands in front of the first item. -/
def unopened
    (style : ItemStyle) :
    ItemStyle :=
  { style with opening := [] }

/-- The lexemes behind an item and those of the items that follow it. -/
def afterItem
    (style : ItemStyle) :
    List (List Lexeme) → List Lexeme
  | [] => style.closing
  | next :: rest => style.separator :: (next ++ style.afterItem rest)

/-- The lexemes of items between braces. -/
def items
    (style : ItemStyle) :
    List (List Lexeme) → List Lexeme
  | [] => []
  | first :: rest => style.opening ++ first ++ style.afterItem rest

end ItemStyle

section Lexemes

variable (style : ItemStyle)

mutual

/-- The lexemes of a type expression. -/
def TypeForm.lexemes : TypeForm → List Lexeme
  | .name qualifier ident args => ident.lexemesBehind qualifier ++ inBrackets (typesLexemes args)
  | .pointer elem => .ofKind .star :: elem.lexemes
  | .slice elem => .ofKind .leftBracket :: .ofKind .rightBracket :: elem.lexemes
  | .array length elem =>
      .ofKind .leftBracket :: length.lexeme :: .ofKind .rightBracket :: elem.lexemes
  | .map key value =>
      .ofKind .mapKeyword :: .ofKind .leftBracket ::
        (key.lexemes ++ .ofKind .rightBracket :: value.lexemes)
  | .chan direction elem => direction.lexemes ++ elem.lexemes
  | .func params result =>
      .ofKind .funcKeyword :: .ofKind .leftParen ::
        (commaSeparated (paramsLexemes params) ++ .ofKind .rightParen :: result.lexemes)
  | .struct fields =>
      .ofKind .structKeyword :: .ofKind .leftBrace ::
        (style.items (fieldsLexemes fields) ++ [.ofKind .rightBrace])
  | .interface elems =>
      .ofKind .interfaceKeyword :: .ofKind .leftBrace ::
        (style.items (elemsLexemes elems) ++ [.ofKind .rightBrace])
  | .paren inner => .ofKind .leftParen :: (inner.lexemes ++ [.ofKind .rightParen])

/-- The lexemes of each of several type expressions. -/
def typesLexemes : List TypeForm → List (List Lexeme)
  | [] => []
  | first :: rest => first.lexemes :: typesLexemes rest

/-- The lexemes of an entry of a parameter list. -/
def ParamForm.lexemes : ParamForm → List Lexeme
  | .mk name variadic type =>
      name.toList.map Identifier.lexeme ++
        ((if variadic then [.ofKind .ellipsis] else []) ++ type.lexemes)

/-- The lexemes of each entry of a parameter list. -/
def paramsLexemes : List ParamForm → List (List Lexeme)
  | [] => []
  | first :: rest => first.lexemes :: paramsLexemes rest

/-- The lexemes of results. -/
def ResultForm.lexemes : ResultForm → List Lexeme
  | .none => []
  | .single type => type.lexemes
  | .list params =>
      .ofKind .leftParen :: (commaSeparated (paramsLexemes params) ++ [.ofKind .rightParen])

/-- The lexemes of a field declaration. -/
def FieldForm.lexemes : FieldForm → List Lexeme
  | .named first more type tag =>
      first.lexeme ::
        (Identifier.lexemesBehindCommas more ++
          (type.lexemes ++ tag.toList.map StringLiteral.lexeme))
  | .embedded starred qualifier ident args tag =>
      (if starred then [.ofKind .star] else []) ++
        (ident.lexemesBehind qualifier ++
          (inBrackets (typesLexemes args) ++ tag.toList.map StringLiteral.lexeme))

/-- The lexemes of each of several field declarations. -/
def fieldsLexemes : List FieldForm → List (List Lexeme)
  | [] => []
  | first :: rest => first.lexemes :: fieldsLexemes rest

/-- The lexemes of an interface element. -/
def ElemForm.lexemes : ElemForm → List Lexeme
  | .method name params result =>
      name.lexeme :: .ofKind .leftParen ::
        (commaSeparated (paramsLexemes params) ++ .ofKind .rightParen :: result.lexemes)
  | .terms terms => terms.lexemes

/-- The lexemes of each of several interface elements. -/
def elemsLexemes : List ElemForm → List (List Lexeme)
  | [] => []
  | first :: rest => first.lexemes :: elemsLexemes rest

/-- The lexemes of the terms of an interface element. -/
def TermsForm.lexemes : TermsForm → List Lexeme
  | .last tilde type => (if tilde then [.ofKind .tilde] else []) ++ type.lexemes
  | .more tilde type rest =>
      (if tilde then [.ofKind .tilde] else []) ++ (type.lexemes ++ .ofKind .pipe :: rest.lexemes)

end

end Lexemes

/-! ## Reading -/

section Reading

/-- The span of everything that stands nowhere in particular. -/
def here : Span :=
  ⟨0, 0⟩

mutual

/-- What a reader makes of a type expression. -/
def TypeForm.expr : TypeForm → TypeExpr
  | .name qualifier ident args =>
      .name here (qualifier.map Identifier.ident) (some ident.ident) (!args.isEmpty)
        (typesExpr args)
  | .pointer elem => .pointer here elem.expr
  | .slice elem => .slice here elem.expr
  | .array length elem => .array here length.text elem.expr
  | .map key value => .map here key.expr value.expr
  | .chan direction elem => .chan here direction elem.expr
  | .func params result => .func here (.list here (paramsExpr params)) result.expr
  | .struct fields => .struct here (fieldsExpr fields)
  | .interface elems => .interface here (elemsExpr elems)
  | .paren inner => .paren here inner.expr

/-- What a reader makes of type expressions. -/
def typesExpr : List TypeForm → List TypeExpr
  | [] => []
  | first :: rest => first.expr :: typesExpr rest

/-- What a reader makes of the entries of a parameter list. -/
def paramsExpr : List ParamForm → List Param
  | [] => []
  | .mk name variadic type :: rest =>
      .mk here (name.map Identifier.ident) variadic type.expr :: paramsExpr rest

/-- What a reader makes of results. -/
def ResultForm.expr : ResultForm → Result
  | .none => .absent
  | .single type => .single type.expr
  | .list params => .list (.list here (paramsExpr params))

/-- What a reader makes of field declarations; it passes over their tags. -/
def fieldsExpr : List FieldForm → List FieldDecl
  | [] => []
  | .named first more type _ :: rest =>
      .mk here ((first :: more).map Identifier.ident) false type.expr :: fieldsExpr rest
  | .embedded starred qualifier ident args _ :: rest =>
      .mk here [] starred
          (.name here (qualifier.map Identifier.ident) (some ident.ident) (!args.isEmpty)
            (typesExpr args)) ::
        fieldsExpr rest

/-- What a reader makes of interface elements. -/
def elemsExpr : List ElemForm → List Elem
  | [] => []
  | .method name params result :: rest =>
      .method here (some name.ident) (.list here (paramsExpr params)) result.expr ::
        elemsExpr rest
  | .terms terms :: rest => terms.expr :: elemsExpr rest

/-- What a reader makes of the terms of an element; it passes over those of a type set. -/
def TermsForm.expr : TermsForm → Elem
  | .last false type => .embedded here type.expr
  | .last true _ => .typeSet here
  | .more _ _ _ => .typeSet here

end

end Reading

/-! ## Forms that need no more parentheses -/

namespace TypeForm

/-- Whether a type expression begins with an arrow. -/
def beginsWithArrow : TypeForm → Bool
  | .chan .receive _ => true
  | _ => false

/-- Whether a type expression is in parentheses. -/
def isParen : TypeForm → Bool
  | .paren _ => true
  | _ => false

end TypeForm

mutual

/--
Whether the parentheses of a type expression are enough for it to be spelled.  An arrow behind the
keyword of a channel would make it a channel to send on, and parentheses around a single result a
list of results.
-/
def TypeForm.Parenthesised : TypeForm → Prop
  | .name _ _ args => TypesParenthesised args
  | .pointer elem => elem.Parenthesised
  | .slice elem => elem.Parenthesised
  | .array _ elem => elem.Parenthesised
  | .map key value => key.Parenthesised ∧ value.Parenthesised
  | .chan direction elem =>
      (direction = .both → elem.beginsWithArrow = false) ∧ elem.Parenthesised
  | .func params result => ParamsParenthesised params ∧ result.Parenthesised
  | .struct fields => FieldsParenthesised fields
  | .interface elems => ElemsParenthesised elems
  | .paren inner => inner.Parenthesised

/-- Whether the parentheses of type expressions are enough. -/
def TypesParenthesised : List TypeForm → Prop
  | [] => True
  | first :: rest => first.Parenthesised ∧ TypesParenthesised rest

/-- Whether the parentheses of the entries of a parameter list are enough. -/
def ParamsParenthesised : List ParamForm → Prop
  | [] => True
  | .mk _ _ type :: rest => type.Parenthesised ∧ ParamsParenthesised rest

/-- Whether the parentheses of results are enough. -/
def ResultForm.Parenthesised : ResultForm → Prop
  | .none => True
  | .single type => type.isParen = false ∧ type.Parenthesised
  | .list params => ParamsParenthesised params

/-- Whether the parentheses of field declarations are enough. -/
def FieldsParenthesised : List FieldForm → Prop
  | [] => True
  | .named _ _ type _ :: rest => type.Parenthesised ∧ FieldsParenthesised rest
  | .embedded _ _ _ args _ :: rest => TypesParenthesised args ∧ FieldsParenthesised rest

/-- Whether the parentheses of interface elements are enough. -/
def ElemsParenthesised : List ElemForm → Prop
  | [] => True
  | .method _ params result :: rest =>
      ParamsParenthesised params ∧ result.Parenthesised ∧ ElemsParenthesised rest
  | .terms terms :: rest => terms.Parenthesised ∧ ElemsParenthesised rest

/-- Whether the parentheses of the terms of an interface element are enough. -/
def TermsForm.Parenthesised : TermsForm → Prop
  | .last _ type => type.Parenthesised
  | .more _ type rest => type.Parenthesised ∧ rest.Parenthesised

end

end Implementers.Syntax
