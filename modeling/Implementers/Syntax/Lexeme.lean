import Implementers.Syntax.Kind
import Implementers.Text.Category

namespace Implementers.Syntax

/-!
# Lexemes

A text is cut into lexemes from left to right; each takes the longest run of characters that its
class allows.  The cut is described by one function, `extent`, which says for a first character
and the text behind it what kind of lexeme begins there and how many further characters it takes.
So every lexeme has at least one character, and putting the lexemes side by side gives the text
back.

General comments are not recognised: from `/*` a lexeme of kind `error` reaches up to the slash of
the first `*/` behind it.  Text that fits no class is an `error` as well.
-/

/-- A piece of source text together with its kind. -/
structure Lexeme where
  kind : Kind
  text : List Char
  deriving Repr, DecidableEq

namespace Lexeme

/-- The keywords with their kinds. -/
def keywords : List (List Char × Kind) :=
  [ ("break".toList, .breakKeyword), ("case".toList, .caseKeyword), ("chan".toList, .chanKeyword),
    ("const".toList, .constKeyword), ("continue".toList, .continueKeyword),
    ("default".toList, .defaultKeyword), ("defer".toList, .deferKeyword),
    ("else".toList, .elseKeyword), ("fallthrough".toList, .fallthroughKeyword),
    ("for".toList, .forKeyword), ("func".toList, .funcKeyword), ("go".toList, .goKeyword),
    ("goto".toList, .gotoKeyword), ("if".toList, .ifKeyword), ("import".toList, .importKeyword),
    ("interface".toList, .interfaceKeyword), ("map".toList, .mapKeyword),
    ("package".toList, .packageKeyword), ("range".toList, .rangeKeyword),
    ("return".toList, .returnKeyword), ("select".toList, .selectKeyword),
    ("struct".toList, .structKeyword), ("switch".toList, .switchKeyword),
    ("type".toList, .typeKeyword), ("var".toList, .varKeyword) ]

/-- The operators and the punctuation, longer spellings before their beginnings. -/
def punctuation : List (List Char × Kind) :=
  [ (['&', '^', '='], .operator), (['<', '<', '='], .operator), (['>', '>', '='], .operator),
    (['.', '.', '.'], .ellipsis),
    ([':', '='], .colonEquals), (['<', '-'], .arrow), (['+', '+'], .plusPlus),
    (['-', '-'], .minusMinus),
    (['<', '<'], .operator), (['>', '>'], .operator), (['&', '^'], .operator),
    (['+', '='], .operator), (['-', '='], .operator), (['*', '='], .operator),
    (['/', '='], .operator), (['%', '='], .operator), (['&', '='], .operator),
    (['|', '='], .operator), (['^', '='], .operator), (['&', '&'], .operator),
    (['|', '|'], .operator), (['=', '='], .operator), (['!', '='], .operator),
    (['<', '='], .operator), (['>', '='], .operator),
    (['\x7b'], .leftBrace), (['\x7d'], .rightBrace), (['['], .leftBracket),
    ([']'], .rightBracket), (['('], .leftParen), ([')'], .rightParen), ([';'], .semicolon),
    ([':'], .colon), (['.'], .dot), ([','], .comma), (['='], .equals), (['*'], .star),
    (['~'], .tilde), (['|'], .pipe),
    (['+'], .operator), (['-'], .operator), (['/'], .operator), (['%'], .operator),
    (['&'], .operator), (['^'], .operator), (['<'], .operator), (['>'], .operator),
    (['!'], .operator) ]

/-- Whether a character can begin an identifier. -/
def startsIdentifier
    (character : Char) :
    Bool :=
  Text.isLetter character || character == '_'

/-- Whether a character can continue an identifier. -/
def continuesIdentifier
    (character : Char) :
    Bool :=
  Text.isLetter character || Text.isDecimal character || character == '_'

/-- The spaces within a line. -/
def isInlineSpace
    (character : Char) :
    Bool :=
  character == ' ' || character == '\t' || character == '\r'

/-- The digits of a decimal numeral, which an underscore may separate. -/
def isDecimalPart
    (character : Char) :
    Bool :=
  character.isDigit || character == '_'

/-- Whether a character can stand in a numeral behind the radix mark that follows its zero. -/
def isRadixPart
    (mark : Char)
    (character : Char) :
    Bool :=
  character == '_' ||
    if mark == 'x' || mark == 'X' then
      character.isDigit || ('a' ≤ character && character ≤ 'f') ||
        ('A' ≤ character && character ≤ 'F')
    else if mark == 'b' || mark == 'B' then
      character == '0' || character == '1'
    else if mark == 'o' || mark == 'O' then
      '0' ≤ character && character ≤ '7'
    else
      false

/-- The length of the longest beginning whose characters all belong to a class. -/
def run
    (belongs : Char → Bool)
    (text : List Char) :
    Nat :=
  (text.takeWhile belongs).length

/-- The length of an exponent at the beginning of a text, or zero. -/
def exponentLength : List Char → Nat
  | [] => 0
  | mark :: rest =>
      if mark == 'e' || mark == 'E' then
        let sign :=
          match rest with
          | '+' :: _ => 1
          | '-' :: _ => 1
          | _ => 0
        let digits := run isDecimalPart (rest.drop sign)
        if digits == 0 then 0 else 1 + sign + digits
      else
        0

/-- The length of a decimal point with its digits at the beginning of a text, or zero. -/
def fractionLength : List Char → Nat
  | '.' :: rest => 1 + run isDecimalPart rest
  | _ => 0

/-- A decimal numeral: digits, then a fraction, an exponent and an imaginary unit if they follow. -/
def decimalExtent
    (rest : List Char) :
    Kind × Nat :=
  let digits := run isDecimalPart rest
  let fraction := fractionLength (rest.drop digits)
  let exponent := exponentLength (rest.drop (digits + fraction))
  let length := digits + fraction + exponent
  if (rest.drop length).head? == some 'i' then
    (.imaginary, length + 1)
  else if fraction + exponent == 0 then
    (.int, length)
  else
    (.float, length)

/-- Whether a character behind a zero says in which radix the numeral goes on. -/
def isRadixMark
    (character : Char) :
    Bool :=
  ['x', 'X', 'b', 'B', 'o', 'O'].contains character

/-- A numeral that begins with `digit`: one with a radix mark, or else a decimal one. -/
def numeralExtent
    (digit : Char)
    (rest : List Char) :
    Kind × Nat :=
  match rest with
  | [] => decimalExtent rest
  | mark :: behind =>
      let length := run (isRadixPart mark) behind
      if digit == '0' && isRadixMark mark && length != 0 then
        (.int, 1 + length)
      else
        decimalExtent rest

/--
The length of the longest beginning that can stand inside a literal with these quotes on one line:
escaped characters, and others except the quote, the backslash and the newline.
-/
def quotedLength
    (quote : Char) :
    List Char → Nat
  | [] => 0
  | '\\' :: character :: rest =>
      if character == '\n' then 0 else 2 + quotedLength quote rest
  | character :: rest =>
      if character == quote || character == '\n' || character == '\\' then
        0
      else
        1 + quotedLength quote rest

/-- A literal of the given kind if its closing quote follows its content, else an error. -/
def quotedExtent
    (kind : Kind)
    (quote : Char)
    (content : Nat)
    (rest : List Char) :
    Kind × Nat :=
  if (rest.drop content).head? == some quote then
    (kind, content + 1)
  else
    (.error, content)

/-- The length of a text up to the slash that ends its first `*/`, or the whole length. -/
def commentLength : List Char → Nat
  | [] => 0
  | '*' :: '/' :: _ => 1
  | _ :: rest => 1 + commentLength rest

/-- The first punctuation of the table that a text begins with, or a one-character error. -/
def punctuationExtent
    (first : Char)
    (rest : List Char) :
    Kind × Nat :=
  match punctuation.find? fun entry => entry.1.isPrefixOf (first :: rest) with
  | some (spelling, kind) => (kind, spelling.length - 1)
  | none => (.error, 0)

/--
The kind of the lexeme that begins with `first`, and how many characters of the text behind it
belong to the lexeme.
-/
def extent
    (first : Char)
    (rest : List Char) :
    Kind × Nat :=
  if isInlineSpace first then
    (.whitespace, run isInlineSpace rest)
  else if first == '\n' then
    (.newline, 0)
  else if startsIdentifier first then
    let length := run continuesIdentifier rest
    (((keywords.lookup (first :: rest.take length)).getD .ident), length)
  else if first.isDigit then
    numeralExtent first rest
  else if first == '\x27' then
    let content := quotedLength first rest
    if content == 0 then (.error, 0) else quotedExtent .rune first content rest
  else if first == '"' then
    quotedExtent .string first (quotedLength first rest) rest
  else if first == '\x60' then
    quotedExtent .string first (run (· != first) rest) rest
  else
    match first, rest with
    | '/', '/' :: behind => (.lineComment, 1 + run (· != '\n') behind)
    | '/', '*' :: behind => (.error, 1 + commentLength behind)
    | '.', digit :: _ =>
        if digit.isDigit then
          let digits := run isDecimalPart rest
          (.float, digits + exponentLength (rest.drop digits))
        else
          punctuationExtent first rest
    | _, _ => punctuationExtent first rest

/-- The lexemes of a text, from left to right. -/
def ofText : List Char → List Lexeme
  | [] => []
  | first :: rest =>
      let (kind, length) := extent first rest
      ⟨kind, first :: rest.take length⟩ :: ofText (rest.drop length)
  termination_by text => text.length
  decreasing_by
    simp only [List.length_drop, List.length_cons]
    omega

/-- The texts of the lexemes of a text, side by side, are the text. -/
theorem flatMap_text_ofText
    (text : List Char) :
    (ofText text).flatMap Lexeme.text = text := by
  fun_induction ofText text with
  | case1 => rfl
  | case2 first rest kind length _ inductionHypothesis =>
      simp [inductionHypothesis]

end Lexeme

end Implementers.Syntax
