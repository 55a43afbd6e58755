import Implementers.Proofs.Syntax.Spelling
import Implementers.Syntax.Token
import Mathlib.Data.List.Basic
import Mathlib.Tactic.IntervalCases

namespace Implementers.Syntax

/-!
# Where lexemes end

A lexeme is read from a text as it was written if the text behind it begins with a character that
does not go on with it.  Whether one lexeme may directly follow another one depends on both of them;
white space may follow any.
-/

namespace Lexeme

/-! ## Single lexemes -/

/-- The punctuation marks that declarations of types use. -/
def marks : List Kind :=
  [ .leftBrace, .rightBrace, .leftBracket, .rightBracket, .leftParen, .rightParen, .semicolon,
    .dot, .ellipsis, .comma, .star, .arrow, .tilde, .pipe ]

/-- A lexeme that declarations of types use. -/
inductive Plain : Lexeme → Prop where
  | word
      {first : Char}
      {rest : List Char}
      (starts : startsIdentifier first = true)
      (continues : rest.all continuesIdentifier = true) :
      Plain ⟨(keywords.lookup (first :: rest)).getD .ident, first :: rest⟩
  | number
      {text : List Char}
      (isInteger : isInteger text = true) :
      Plain ⟨.int, text⟩
  | literal
      (literal : StringLiteral) :
      Plain literal.lexeme
  | mark
      {kind : Kind}
      (isMark : kind ∈ marks) :
      Plain (ofKind kind)
  | lineBreak : Plain lineBreak

/-- Whether a lexeme is made of letters and digits. -/
def isWord
    (lexeme : Lexeme) :
    Bool :=
  lexeme.kind == .ident || lexeme.kind == .int || lexeme.kind.isKeyword

/-- Whether two lexemes must be kept apart so that they are not read as others. -/
def clashes
    (left right : Lexeme) :
    Bool :=
  match left.kind with
  | .int => right.kind != .rightBracket
  | .dot => right.kind != .ident
  | .pipe => true
  | _ => left.isWord && right.isWord

/-- Whether a text that begins with a character can follow a lexeme directly. -/
def admits
    (lexeme : Lexeme)
    (next : Char) :
    Bool :=
  isInlineSpace next ||
    match lexeme.kind with
    | .int => next == ']'
    | .dot => startsIdentifier next
    | .pipe => false
    | .star => next != '='
    | _ => !(lexeme.isWord && continuesIdentifier next)

/-- The lexeme at the beginning of a text, if the text behind it can follow it directly. -/
def Leads
    (lexeme : Lexeme)
    (next : List Char) :
    Prop :=
  ofText (lexeme.text ++ next) = lexeme :: ofText next

theorem leads_of_extent
    {kind : Kind}
    {first : Char}
    {rest next : List Char}
    (reaches : extent first (rest ++ next) = (kind, rest.length)) :
    Leads ⟨kind, first :: rest⟩ next := by
  rw [Leads, List.cons_append, ofText, reaches]
  simp

theorem run_append
    {belongs : Char → Bool}
    {text next : List Char}
    (all : text.all belongs = true)
    (stops : ∀ character ∈ next.head?, belongs character = false) :
    run belongs (text ++ next) = text.length := by
  have front : ∀ character ∈ text, belongs character = true := List.all_eq_true.mp all
  have back : next.takeWhile belongs = [] := by
    cases next with
    | nil => rfl
    | cons character _ => simp [stops character rfl]
  rw [run, List.takeWhile_append_of_pos front, back, List.append_nil]

/-- No identifier begins with white space or with an equals sign. -/
theorem notSpace_of_startsIdentifier
    {first : Char}
    (starts : startsIdentifier first = true) :
    isInlineSpace first = false ∧ (first == '\n') = false ∧ first ≠ '=' := by
  have others : [' ', '\t', '\r', '\n', '='].any startsIdentifier = false := by decide
  have differs : first ∉ [' ', '\t', '\r', '\n', '='] := fun member =>
    absurd starts (List.any_eq_false.mp others first member)
  simpa [isInlineSpace, and_assoc] using differs

/-- An identifier or a keyword ends where no letter or digit follows. -/
theorem leads_word
    {first : Char}
    {rest next : List Char}
    (starts : startsIdentifier first = true)
    (continues : rest.all continuesIdentifier = true)
    (stops : ∀ character ∈ next.head?, continuesIdentifier character = false) :
    Leads ⟨(keywords.lookup (first :: rest)).getD .ident, first :: rest⟩ next := by
  obtain ⟨notSpace, notBreak, _⟩ := notSpace_of_startsIdentifier starts
  apply leads_of_extent
  unfold extent
  simp [notSpace, notBreak, starts, run_append continues stops]

/-- White space in a line ends where something else follows. -/
theorem leads_blank
    {first : Char}
    {rest next : List Char}
    (blank : (first :: rest).all isInlineSpace = true)
    (stops : ∀ character ∈ next.head?, isInlineSpace character = false) :
    Leads ⟨.whitespace, first :: rest⟩ next := by
  simp only [List.all_cons, Bool.and_eq_true] at blank
  apply leads_of_extent
  unfold extent
  simp [blank.1, run_append blank.2 stops]

theorem leads_lineBreak
    (next : List Char) :
    Leads lineBreak next :=
  leads_of_extent rfl

/-- The digits of a numeral end at a bracket and at white space. -/
theorem stops_of_bracket_or_blank
    {next : List Char}
    (follows : ∀ character ∈ next.head?, isInlineSpace character = true ∨ character = ']') :
    (∀ character ∈ next.head?, isDecimalPart character = false) ∧
      (∀ mark, ∀ character ∈ next.head?, isRadixPart mark character = false) ∧
      fractionLength next = 0 ∧ exponentLength next = 0 ∧ next.head? ≠ some 'i' := by
  cases next with
  | nil => simp [fractionLength, exponentLength]
  | cons character rest =>
      have cases : character ∈ [' ', '\t', '\r', ']'] := by
        have one := follows character rfl
        simp only [isInlineSpace, Bool.or_eq_true, beq_iff_eq] at one
        simp only [List.mem_cons, List.not_mem_nil]
        tauto
      simp only [List.mem_cons, List.not_mem_nil, or_false] at cases
      rcases cases with rfl | rfl | rfl | rfl <;>
        simp [fractionLength, exponentLength, isDecimalPart, isRadixPart]

theorem startsIdentifier_of_isDigit
    {character : Char}
    (isDigit : character.isDigit = true) :
    isInlineSpace character = false ∧ (character == '\n') = false ∧
      startsIdentifier character = false := by
  have small : 48 ≤ character.toNat ∧ character.toNat ≤ 57 := by
    simp only [Char.isDigit, Bool.and_eq_true, decide_eq_true_eq] at isDigit
    exact isDigit
  have eq := Char.ofNat_toNat character
  generalize character.toNat = code at small eq
  subst eq
  obtain ⟨low, high⟩ := small
  interval_cases code <;> decide

/-- What goes on with a decimal numeral or ends it is no radix mark. -/
theorem isRadixMark_of_isDecimalPart
    {character : Char}
    (part : isDecimalPart character = true ∨ isInlineSpace character = true ∨ character = ']') :
    isRadixMark character = false := by
  by_contra isMark
  have cases := List.contains_iff_mem.mp (eq_true_of_ne_false isMark)
  simp only [List.mem_cons, List.not_mem_nil, or_false] at cases
  rcases cases with rfl | rfl | rfl | rfl | rfl | rfl <;> revert part <;> decide

/-- An integer literal ends at a bracket and at white space. -/
theorem leads_number
    {text next : List Char}
    (isInteger : isInteger text = true)
    (follows : ∀ character ∈ next.head?, isInlineSpace character = true ∨ character = ']') :
    Leads ⟨.int, text⟩ next := by
  obtain ⟨decimal, radix, fraction, exponent, imaginary⟩ := stops_of_bracket_or_blank follows
  cases text with
  | nil => cases isInteger
  | cons first rest =>
      simp only [Syntax.isInteger, Bool.and_eq_true, Bool.or_eq_true] at isInteger
      obtain ⟨isDigit, digits⟩ := isInteger
      obtain ⟨notSpace, notBreak, notLetter⟩ := startsIdentifier_of_isDigit isDigit
      apply leads_of_extent
      have isNumeral : extent first (rest ++ next) = numeralExtent first (rest ++ next) := by
        unfold extent
        simp [notSpace, notBreak, notLetter, isDigit]
      rw [isNumeral]
      rcases digits with plain | marked
      · have isDecimal : decimalExtent (rest ++ next) = (.int, rest.length) := by
          unfold decimalExtent
          simp [run_append plain decimal, fraction, exponent, imaginary]
        unfold numeralExtent
        split
        · exact isDecimal
        · next mark behind split =>
            have notMark : isRadixMark mark = false := by
              apply isRadixMark_of_isDecimalPart
              cases rest with
              | nil =>
                  rw [List.nil_append] at split
                  exact .inr (follows mark (by rw [split]; rfl))
              | cons digit _ =>
                  cases (List.cons.inj split).1
                  exact .inl (List.all_eq_true.mp plain _ List.mem_cons_self)
            rw [notMark]
            simpa using isDecimal
      · split at marked
        · cases marked
        · next mark digits =>
            simp only [Bool.and_eq_true, Bool.not_eq_true', List.isEmpty_eq_false_iff] at marked
            obtain ⟨⟨⟨isZero, isMark⟩, some⟩, all⟩ := marked
            unfold numeralExtent
            rw [List.cons_append]
            simp only [run_append all (radix mark), isZero, isMark]
            simp [some, Nat.add_comm]

/-- What can stand between quotes reaches up to the closing one. -/
theorem quotedLength_quotable
    {content : List Char}
    (quotable : isQuotable content = true)
    (next : List Char) :
    quotedLength '"' (content ++ '"' :: next) = content.length := by
  fun_induction isQuotable content with
  | case1 => rfl
  | case2 character rest inductionHypothesis =>
      simp only [Bool.and_eq_true, bne_iff_ne, ne_eq] at quotable
      simp [quotedLength, quotable.1, inductionHypothesis quotable.2]
      omega
  | case3 character rest notEscape inductionHypothesis =>
      simp only [Bool.and_eq_true, bne_iff_ne, ne_eq] at quotable
      obtain ⟨⟨⟨notQuote, notBreak⟩, notBackslash⟩, restQuotable⟩ := quotable
      rw [List.cons_append, quotedLength]
      · simp [notQuote, notBreak, notBackslash, inductionHypothesis restQuotable, Nat.add_comm]
      · exact fun _ _ isBackslash => absurd isBackslash notBackslash

/-- A string literal ends at its closing quote. -/
theorem leads_literal
    (literal : StringLiteral)
    (next : List Char) :
    Leads literal.lexeme next := by
  cases literal with
  | quoted content quotable =>
      apply leads_of_extent
      have length : quotedLength '"' (content ++ ['"'] ++ next) = content.length := by
        simpa using quotedLength_quotable quotable next
      have isLiteral :
          extent '"' (content ++ ['"'] ++ next) =
            quotedExtent .string '"' (quotedLength '"' (content ++ ['"'] ++ next))
              (content ++ ['"'] ++ next) :=
        rfl
      rw [isLiteral, length, quotedExtent]
      simp
  | raw content unquoted =>
      apply leads_of_extent
      have length : run (· != '\x60') (content ++ ['\x60'] ++ next) = content.length := by
        rw [List.append_assoc]
        exact run_append unquoted (by simp)
      have isLiteral :
          extent '\x60' (content ++ ['\x60'] ++ next) =
            quotedExtent .string '\x60' (run (· != '\x60') (content ++ ['\x60'] ++ next))
              (content ++ ['\x60'] ++ next) :=
        rfl
      rw [isLiteral, length, quotedExtent]
      simp

theorem leads_dot
    {next : List Char}
    (follows : ∀ character ∈ next.head?, (ofKind .dot).admits character = true) :
    Leads (ofKind .dot) next := by
  apply leads_of_extent
  cases next with
  | nil => rfl
  | cons character rest =>
      have notDot : ('.' == character) = false := by
        by_contra isDot
        simp only [Bool.not_eq_false, beq_iff_eq] at isDot
        subst isDot
        have admitted := follows '.' rfl
        revert admitted
        decide
      have notDigit : character.isDigit = false := by
        by_contra isDigit
        obtain ⟨notSpace, _, notLetter⟩ :=
          startsIdentifier_of_isDigit (eq_true_of_ne_false isDigit)
        have admitted : (isInlineSpace character || startsIdentifier character) = true :=
          follows character rfl
        rw [notSpace, notLetter] at admitted
        cases admitted
      have isMark : extent '.' (character :: rest) = punctuationExtent '.' (character :: rest) := by
        have same :
            extent '.' (character :: rest) =
              if character.isDigit then
                (.float, run isDecimalPart (character :: rest) +
                  exponentLength ((character :: rest).drop
                    (run isDecimalPart (character :: rest))))
              else
                punctuationExtent '.' (character :: rest) :=
          rfl
        rw [same, notDigit]
        rfl
      rw [List.nil_append, isMark]
      simp [punctuationExtent, punctuation, List.isPrefixOf, notDot]

theorem leads_star
    {next : List Char}
    (follows : ∀ character ∈ next.head?, (ofKind .star).admits character = true) :
    Leads (ofKind .star) next := by
  apply leads_of_extent
  cases next with
  | nil => rfl
  | cons character rest =>
      have notEquals : ('=' == character) = false := by
        by_contra isEquals
        simp only [Bool.not_eq_false, beq_iff_eq] at isEquals
        subst isEquals
        have admitted := follows '=' rfl
        revert admitted
        decide
      have isMark : extent '*' (character :: rest) = punctuationExtent '*' (character :: rest) :=
        rfl
      rw [List.nil_append, isMark]
      simp [punctuationExtent, punctuation, List.isPrefixOf, notEquals]

theorem leads_pipe
    {next : List Char}
    (follows : ∀ character ∈ next.head?, (ofKind .pipe).admits character = true) :
    Leads (ofKind .pipe) next := by
  apply leads_of_extent
  cases next with
  | nil => rfl
  | cons character rest =>
      have blank : (isInlineSpace character || false) = true := follows character rfl
      simp only [isInlineSpace, Bool.or_false, Bool.or_eq_true, beq_iff_eq] at blank
      rcases blank with (rfl | rfl) | rfl <;> rfl

/-- A punctuation mark ends where nothing follows that would make it a longer one. -/
theorem leads_mark
    {kind : Kind}
    (isMark : kind ∈ marks)
    {next : List Char}
    (follows : ∀ character ∈ next.head?, (ofKind kind).admits character = true) :
    Leads (ofKind kind) next := by
  simp only [marks, List.mem_cons, List.not_mem_nil, or_false] at isMark
  rcases isMark with rfl | rfl | rfl | rfl | rfl | rfl | rfl | rfl | rfl | rfl | rfl | rfl | rfl |
    rfl
  any_goals exact leads_of_extent rfl
  · exact leads_dot follows
  · exact leads_star follows
  · exact leads_pipe follows

/-- The kind of a word is that of an identifier or of a keyword. -/
theorem kind_word
    (text : List Char) :
    ∃ kind : Kind, (keywords.lookup text).getD .ident = kind ∧
      (kind = .ident ∨ kind.isKeyword = true) := by
  have all : ∀ entry ∈ keywords, entry.2.isKeyword = true := by decide
  cases known : keywords.lookup text with
  | none => exact ⟨.ident, rfl, .inl rfl⟩
  | some kind =>
      obtain ⟨front, back, listed, _⟩ := List.lookup_eq_some_iff.mp known
      exact ⟨kind, rfl, .inr (all (text, kind) (by rw [listed]; simp))⟩

/-- The lexeme of a word admits what does not continue an identifier. -/
theorem admits_word
    (text : List Char)
    (next : Char) :
    admits ⟨(keywords.lookup text).getD .ident, text⟩ next =
      (isInlineSpace next || !continuesIdentifier next) := by
  obtain ⟨kind, isKind, rfl | isKeyword⟩ := kind_word text
  · rw [isKind]
    rfl
  · rw [isKind]
    cases kind <;> first | rfl | cases isKeyword

/-- A lexeme of a type declaration is read wherever something follows that it admits. -/
theorem Plain.leads
    {lexeme : Lexeme}
    (plain : lexeme.Plain)
    {next : List Char}
    (follows : ∀ character ∈ next.head?, lexeme.admits character = true) :
    Leads lexeme next := by
  cases plain with
  | word starts continues =>
      refine leads_word starts continues fun character first => ?_
      have admitted := follows character first
      rw [admits_word, Bool.or_eq_true, Bool.not_eq_true'] at admitted
      rcases admitted with blank | stops
      · simp only [isInlineSpace, Bool.or_eq_true, beq_iff_eq] at blank
        rcases blank with (rfl | rfl) | rfl <;> decide
      · exact stops
  | number isInteger =>
      refine leads_number isInteger fun character first => ?_
      have admitted : (isInlineSpace character || character == ']') = true :=
        follows character first
      simpa using admitted
  | literal literal => exact leads_literal literal next
  | mark isMark => exact leads_mark isMark follows
  | lineBreak => exact leads_lineBreak next

/-- What the first character of a lexeme tells about the lexeme. -/
structure Begins
    (lexeme : Lexeme)
    (first : Char) :
    Prop where
  text : ∃ rest, lexeme.text = first :: rest
  notSpace : isInlineSpace first = false
  notWord : lexeme.isWord = false → continuesIdentifier first = false
  bracket : lexeme.kind = .rightBracket → first = ']'
  letter : lexeme.kind = .ident → startsIdentifier first = true
  notEquals : first ≠ '='

theorem Plain.begins
    {lexeme : Lexeme}
    (plain : lexeme.Plain) :
    ∃ first, lexeme.Begins first := by
  cases plain with
  | @word first rest starts _ =>
      obtain ⟨notSpace, _, notEquals⟩ := notSpace_of_startsIdentifier starts
      obtain ⟨kind, isKind, known⟩ := kind_word (first :: rest)
      rw [isKind]
      refine ⟨first, ⟨rest, rfl⟩, notSpace, ?_, ?_, fun _ => starts, notEquals⟩
      · intro isOther
        rcases known with rfl | isKeyword
        · cases isOther
        · simp [isWord, isKeyword] at isOther
      · rintro rfl
        rcases known with isIdent | isKeyword
        · cases isIdent
        · cases isKeyword
  | @number text isInteger =>
      cases text with
      | nil => cases isInteger
      | cons first rest =>
          simp only [Syntax.isInteger, Bool.and_eq_true] at isInteger
          obtain ⟨notSpace, _, _⟩ := startsIdentifier_of_isDigit isInteger.1
          refine ⟨first, ⟨rest, rfl⟩, notSpace, by rintro ⟨⟩, by rintro ⟨⟩, by rintro ⟨⟩, ?_⟩
          rintro rfl
          exact absurd isInteger.1 (by decide)
  | literal literal =>
      cases literal with
      | quoted =>
          exact ⟨_, ⟨_, rfl⟩, by decide, fun _ => by decide, by rintro ⟨⟩, by rintro ⟨⟩, by decide⟩
      | raw =>
          exact ⟨_, ⟨_, rfl⟩, by decide, fun _ => by decide, by rintro ⟨⟩, by rintro ⟨⟩, by decide⟩
  | mark isMark =>
      simp only [marks, List.mem_cons, List.not_mem_nil, or_false] at isMark
      rcases isMark with rfl | rfl | rfl | rfl | rfl | rfl | rfl | rfl | rfl | rfl | rfl | rfl |
        rfl | rfl <;>
      exact ⟨_, ⟨_, rfl⟩, by decide, by decide, by decide, by decide, by decide⟩
  | lineBreak => exact ⟨_, ⟨_, rfl⟩, by decide, by decide, by decide, by decide, by decide⟩

/-- What begins a lexeme can follow another one directly unless both clash. -/
theorem Begins.admits
    {left right : Lexeme}
    {first : Char}
    (begins : right.Begins first)
    (apart : left.clashes right = false) :
    left.admits first = true := by
  unfold clashes at apart
  unfold Lexeme.admits
  rw [begins.notSpace, Bool.false_or]
  split
  · next isInt =>
      rw [isInt] at apart
      simpa using begins.bracket (by simpa using apart)
  · next isDot =>
      rw [isDot] at apart
      exact begins.letter (by simpa using apart)
  · next isPipe =>
      rw [isPipe] at apart
      cases apart
  · simpa using begins.notEquals
  · next notInt notDot notPipe _ =>
      split at apart
      · next isInt => exact absurd isInt notInt
      · next isDot => exact absurd isDot notDot
      · next isPipe => exact absurd isPipe notPipe
      · cases isWord : left.isWord with
        | false => rfl
        | true =>
            rw [isWord, Bool.true_and] at apart
            rw [begins.notWord apart]
            rfl

end Lexeme

/-! ## White space -/

section Blank

open Lexeme

/-- The numbers of the blank characters. -/
def blankCodes : List Nat :=
  [ 9, 10, 11, 12, 13, 32, 0x85, 0xa0, 0x1680, 0x2000, 0x2001, 0x2002, 0x2003, 0x2004, 0x2005,
    0x2006, 0x2007, 0x2008, 0x2009, 0x200a, 0x2028, 0x2029, 0x202f, 0x205f, 0x3000 ]

theorem mem_blankCodes
    {character : Char}
    (blank : Text.isBlank character = true) :
    character.toNat ∈ blankCodes := by
  unfold Text.isBlank at blank
  split at blank
  · simp only [Bool.or_eq_true, Bool.and_eq_true, beq_iff_eq, decide_eq_true_eq] at blank
    rcases blank with rfl | ⟨low, high⟩
    · decide
    · simp only [blankCodes, List.mem_cons]
      omega
  · simp [Text.isListed, Text.blankTable, Text.CodeRange.unbroken, Text.CodeRange.contains] at blank
    simp only [blankCodes, List.mem_cons]
    omega

/-- Only the kind of radix mark counts for what follows it. -/
theorem isRadixPart_known
    {mark character : Char}
    (part : isRadixPart mark character = true) :
    ∃ known ∈ ['x', 'b', 'o'], isRadixPart known character = true := by
  unfold isRadixPart at part
  split_ifs at part
  · exact ⟨'x', by decide, part⟩
  · exact ⟨'b', by decide, part⟩
  · exact ⟨'o', by decide, part⟩
  · exact ⟨'o', by decide, by simp_all [isRadixPart]⟩

/-- No character of an identifier or of a numeral is blank. -/
theorem not_isBlank
    {character : Char}
    (belongs : continuesIdentifier character = true ∨ isDecimalPart character = true ∨
      isRadixMark character = true ∨ ∃ mark, isRadixPart mark character = true) :
    Text.isBlank character = false := by
  by_contra blank
  have member := mem_blankCodes (eq_true_of_ne_false blank)
  have others : ∀ code ∈ blankCodes, continuesIdentifier (Char.ofNat code) = false ∧
      isDecimalPart (Char.ofNat code) = false ∧ isRadixMark (Char.ofNat code) = false ∧
      ['x', 'b', 'o'].any (isRadixPart · (Char.ofNat code)) = false := by
    decide +kernel
  obtain ⟨notWord, notDigit, notMark, notRadix⟩ := others _ member
  rw [Char.ofNat_toNat] at notWord notDigit notMark
  rcases belongs with word | digit | isMark | ⟨mark, part⟩
  · simp [notWord] at word
  · simp [notDigit] at digit
  · simp [notMark] at isMark
  · obtain ⟨known, isKnown, partKnown⟩ := isRadixPart_known part
    rw [Char.ofNat_toNat] at notRadix
    exact absurd partKnown (List.any_eq_false.mp notRadix known isKnown)

/-- An array length has no white space. -/
theorem ArrayLength.not_isBlank
    (length : ArrayLength) :
    ∀ character ∈ length.lexeme.text, Text.isBlank character = false := by
  intro character member
  apply Syntax.not_isBlank
  cases length with
  | name ident =>
      obtain ⟨text, valid⟩ := ident
      cases text with
      | nil => cases valid
      | cons first rest =>
          simp only [isIdentifier, Bool.and_eq_true, List.all_eq_true] at valid
          rcases List.mem_cons.mp member with rfl | isLater
          · have starts := valid.1.1
            simp only [startsIdentifier, Bool.or_eq_true] at starts
            refine .inl ?_
            rcases starts with letter | underscore
            · simp [continuesIdentifier, letter]
            · simp [continuesIdentifier, underscore]
          · exact .inl (valid.1.2 character isLater)
  | number text isInteger =>
      cases text with
      | nil => cases isInteger
      | cons first rest =>
          simp only [Syntax.isInteger, Bool.and_eq_true, Bool.or_eq_true, List.all_eq_true]
            at isInteger
          obtain ⟨isDigit, decimal | marked⟩ := isInteger
          · rcases List.mem_cons.mp member with rfl | isLater
            · exact .inr (.inl (by simp [isDecimalPart, isDigit]))
            · exact .inr (.inl (decimal character isLater))
          · split at marked
            · cases marked
            · next mark digits =>
                simp only [Bool.and_eq_true, List.all_eq_true] at marked
                rcases List.mem_cons.mp member with rfl | isLater
                · exact .inr (.inl (by simp [isDecimalPart, isDigit]))
                · rcases List.mem_cons.mp isLater with rfl | isPart
                  · exact .inr (.inr (.inl marked.1.1.2))
                  · exact .inr (.inr (.inr ⟨mark, marked.2 character isPart⟩))

end Blank

end Implementers.Syntax
