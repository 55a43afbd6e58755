import Implementers.Proofs.Syntax.Comments
import Mathlib.Data.List.Nodup

namespace Implementers.Syntax

/-!
# Line breaks that end statements

A line break ends a statement if the last token in front of it that is no trivia is an identifier, a
literal, one of a few keywords or operators, or a closing bracket; any other line break is white
space.  The reader of tokens has only a flag for this, which it sets behind each token.  At any
place of a text the flag tells what the last token is that counts.  Which token this is can be told
by its text: what has a fixed spelling is never read as anything else.
-/

open Lexeme

namespace Lexeme

/-! ## Fixed spellings -/

/-- The lexemes with a fixed spelling, each with its kind. -/
def spellings : List (List Char × Kind) :=
  keywords ++ punctuation ++ [(['\n'], .newline)]

/-- Whether the lexemes of a kind are spelled freely. -/
def isFree : Kind → Bool
  | .whitespace | .lineComment | .ident | .int | .float | .imaginary | .rune | .string | .error =>
      true
  | _ => false

/-- Whether a lexeme has a fixed spelling and its kind, or neither of them. -/
def Spelled
    (lexeme : Lexeme) :
    Prop :=
  (lexeme.text, lexeme.kind) ∈ spellings ∨
    isFree lexeme.kind = true ∧ lexeme.text ∉ spellings.map Prod.fst

theorem newline_mem_spellings :
    (['\n'], Kind.newline) ∈ spellings :=
  List.mem_append_right _ List.mem_cons_self

/-- No fixed spelling begins with a blank, a digit or a quote. -/
theorem head_of_mem_spellings
    {first : Char}
    {rest : List Char}
    (spelled : first :: rest ∈ spellings.map Prod.fst) :
    isInlineSpace first = false ∧ first.isDigit = false ∧ first ∉ ['\x27', '"', '\x60'] := by
  have all : ∀ text ∈ spellings.map Prod.fst, text.head?.all (fun first =>
      !isInlineSpace first && !first.isDigit && decide (first ∉ ['\x27', '"', '\x60'])) = true := by
    decide
  have isOther := all _ spelled
  simp only [List.head?_cons, Option.all_some, Bool.and_eq_true, Bool.not_eq_true',
    decide_eq_true_eq] at isOther
  exact ⟨isOther.1.1, isOther.1.2, isOther.2⟩

/-- A fixed spelling that begins like an identifier is a keyword. -/
theorem mem_keywords_of_startsIdentifier
    {first : Char}
    {rest : List Char}
    (starts : startsIdentifier first = true)
    (spelled : first :: rest ∈ spellings.map Prod.fst) :
    first :: rest ∈ keywords.map Prod.fst := by
  have all : ∀ text ∈ (punctuation ++ [(['\n'], Kind.newline)]).map Prod.fst,
      text.head?.all (fun first => !startsIdentifier first) = true := by
    decide
  rw [spellings, List.append_assoc, List.map_append] at spelled
  refine (List.mem_append.mp spelled).resolve_right fun isMark => ?_
  have notWord : (!startsIdentifier first) = true := all _ isMark
  rw [starts] at notWord
  cases notWord

/-- A word is an identifier unless it is spelled like a keyword. -/
theorem spelled_word
    {first : Char}
    {rest : List Char}
    (starts : startsIdentifier first = true) :
    Spelled ⟨(keywords.lookup (first :: rest)).getD .ident, first :: rest⟩ := by
  cases known : keywords.lookup (first :: rest) with
  | some kind =>
      obtain ⟨front, back, listed, _⟩ := List.lookup_eq_some_iff.mp known
      have isKeyword : (first :: rest, kind) ∈ keywords := by
        rw [listed]
        exact List.mem_append_right front List.mem_cons_self
      exact .inl (List.mem_append_left _ (List.mem_append_left _ isKeyword))
  | none =>
      refine .inr ⟨rfl, fun spelled => ?_⟩
      obtain ⟨entry, isKeyword, same⟩ :=
        List.mem_map.mp (mem_keywords_of_startsIdentifier starts spelled)
      have differs := List.lookup_eq_none_iff.mp known entry isKeyword
      simp [same] at differs

/-- What begins with a blank, a digit or a quote has no fixed spelling. -/
theorem spelled_of_head
    {kind : Kind}
    {first : Char}
    {rest : List Char}
    (free : isFree kind = true)
    (isOther : isInlineSpace first = true ∨ first.isDigit = true ∨
      first ∈ ['\x27', '"', '\x60']) :
    Spelled ⟨kind, first :: rest⟩ := by
  refine .inr ⟨free, fun spelled => ?_⟩
  obtain ⟨notSpace, notDigit, notQuote⟩ := head_of_mem_spellings spelled
  rcases isOther with isSpace | isDigit | isQuote
  · rw [notSpace] at isSpace
    cases isSpace
  · rw [notDigit] at isDigit
    cases isDigit
  · exact notQuote isQuote

/-- A punctuation mark is spelled as its kind says, and an error is none. -/
theorem spelled_punctuation
    (first : Char)
    (rest : List Char)
    (notBreak : first ≠ '\n')
    (notWord : startsIdentifier first = false) :
    Spelled ⟨(punctuationExtent first rest).1,
      first :: rest.take (punctuationExtent first rest).2⟩ := by
  unfold punctuationExtent
  split
  · next spelling kind found =>
      have begins : spelling <+: first :: rest := by
        simpa using List.find?_some found
      have isMark := List.mem_of_find?_eq_some found
      have some : spelling ≠ [] := by
        rintro rfl
        have all : ∀ entry ∈ punctuation, entry.1 ≠ [] := by decide
        exact all _ isMark rfl
      obtain ⟨character, others, rfl⟩ := List.exists_cons_of_ne_nil some
      obtain ⟨rfl, behind⟩ := List.cons_prefix_cons.mp begins
      have taken : rest.take others.length = others := (List.prefix_iff_eq_take.mp behind).symm
      refine .inl (List.mem_append_left _ (List.mem_append_right _ ?_))
      simpa [taken] using isMark
  · next absent =>
      refine .inr ⟨rfl, fun spelled => ?_⟩
      rw [List.take_zero, spellings, List.map_append, List.map_append] at spelled
      rcases List.mem_append.mp spelled with isListed | isBreak
      · rcases List.mem_append.mp isListed with isKeyword | isMark
        · have all : ∀ text ∈ keywords.map Prod.fst, text.head?.all startsIdentifier = true := by
            decide
          have isWord : startsIdentifier first = true := all _ isKeyword
          rw [notWord] at isWord
          cases isWord
        · obtain ⟨entry, isEntry, same⟩ := List.mem_map.mp isMark
          have differs := List.find?_eq_none.mp absent entry isEntry
          simp [same, List.isPrefixOf] at differs
      · exact notBreak (by simpa using isBreak)

/-- What begins with a slash has a fixed spelling, or it is a comment or an error. -/
theorem spelled_slash
    (rest : List Char) :
    Spelled ⟨(extent '/' rest).1, '/' :: rest.take (extent '/' rest).2⟩ := by
  have others {kind : Kind} {next : Char} {rest : List Char} (free : isFree kind = true)
      (isComment : next = '/' ∨ next = '*') :
      Spelled ⟨kind, '/' :: next :: rest⟩ := by
    refine .inr ⟨free, fun spelled => ?_⟩
    have all : ∀ text ∈ spellings.map Prod.fst, text.head? = some '/' →
        text[1]? ≠ some '/' ∧ text[1]? ≠ some '*' := by
      decide
    rcases isComment with rfl | rfl
    · exact (all _ spelled rfl).1 rfl
    · exact (all _ spelled rfl).2 rfl
  rw [extent_slash]
  cases rest with
  | nil => exact spelled_punctuation '/' [] (by decide) (by decide)
  | cons next rest =>
      simp only [List.head?_cons, List.tail_cons, Option.some.injEq]
      split_ifs with isLine isGeneral
      · rw [Nat.add_comm]
        exact others rfl (.inl isLine)
      · rw [Nat.add_comm]
        exact others rfl (.inr isGeneral)
      · exact spelled_punctuation '/' (next :: rest) (by decide) (by decide)

/-- What begins with a dot has a fixed spelling, or it is a numeral. -/
theorem spelled_dot
    (rest : List Char) :
    Spelled ⟨(extent '.' rest).1, '.' :: rest.take (extent '.' rest).2⟩ := by
  rw [extent_dot]
  split
  · next isDigit =>
      refine .inr ⟨rfl, fun spelled => ?_⟩
      obtain ⟨digit, rest, rfl⟩ : ∃ digit others, rest = digit :: others := by
        cases rest with
        | nil => cases isDigit
        | cons digit rest => exact ⟨digit, rest, rfl⟩
      have isDigit : digit.isDigit = true := isDigit
      have all : ∀ text ∈ spellings.map Prod.fst, text.head? = some '.' →
          text[1]?.all (fun next => !next.isDigit) = true := by
        decide
      have some : run isDecimalPart (digit :: rest) = run isDecimalPart rest + 1 := by
        rw [run_cons, if_pos (by simp [isDecimalPart, isDigit])]
      rw [some, Nat.add_right_comm, List.take_succ_cons] at spelled
      have notDigit : (!digit.isDigit) = true := all _ spelled rfl
      rw [isDigit] at notDigit
      cases notDigit
  · exact spelled_punctuation '.' rest (by decide) (by decide)

/-- The kind of a numeral is that of one of the literals. -/
theorem numeralExtent_free
    (digit : Char)
    (rest : List Char) :
    isFree (numeralExtent digit rest).1 = true := by
  have decimal (rest : List Char) : isFree (decimalExtent rest).1 = true := by
    unfold decimalExtent
    dsimp only
    split_ifs <;> rfl
  unfold numeralExtent
  split
  · exact decimal []
  · dsimp only
    split_ifs
    · rfl
    · exact decimal _

theorem quotedExtent_free
    {kind : Kind}
    (free : isFree kind = true)
    (quote : Char)
    (content : Nat)
    (rest : List Char) :
    isFree (quotedExtent kind quote content rest).1 = true := by
  unfold quotedExtent
  split
  · exact free
  · rfl

/-- The first lexeme of a text has a fixed spelling and its kind, or neither of them. -/
theorem spelled_extent
    (first : Char)
    (rest : List Char) :
    Spelled ⟨(extent first rest).1, first :: rest.take (extent first rest).2⟩ := by
  by_cases isSpace : isInlineSpace first = true
  · rw [extent_inlineSpace isSpace]
    exact spelled_of_head rfl (.inl isSpace)
  by_cases isWord : startsIdentifier first = true
  · rw [extent_word isWord]
    exact spelled_word isWord
  by_cases isDigit : first.isDigit = true
  · rw [extent_numeral isDigit]
    exact spelled_of_head (numeralExtent_free first rest) (.inr (.inl isDigit))
  by_cases isSpecial : first ∈ ['\n', '\x27', '"', '\x60', '/', '.']
  · simp only [List.mem_cons, List.not_mem_nil, or_false] at isSpecial
    rcases isSpecial with rfl | rfl | rfl | rfl | rfl | rfl
    · exact .inl newline_mem_spellings
    · refine spelled_of_head ?_ (.inr (.inr (by decide)))
      rw [extent_rune]
      split
      · rfl
      · exact quotedExtent_free rfl _ _ rest
    · exact spelled_of_head (quotedExtent_free rfl _ _ rest) (.inr (.inr (by decide)))
    · exact spelled_of_head (quotedExtent_free rfl _ _ rest) (.inr (.inr (by decide)))
    · exact spelled_slash rest
    · exact spelled_dot rest
  · have notWord := eq_false_of_ne_true isWord
    rw [extent_mark (eq_false_of_ne_true isSpace) notWord (eq_false_of_ne_true isDigit) isSpecial]
    refine spelled_punctuation first rest ?_ notWord
    rintro rfl
    exact isSpecial (by decide)

/-- Every lexeme of a text has a fixed spelling and its kind, or neither of them. -/
theorem spelled_of_mem
    {text : List Char}
    {lexeme : Lexeme}
    (member : lexeme ∈ ofText text) :
    Spelled lexeme := by
  fun_induction ofText text with
  | case1 => cases member
  | case2 first rest kind length extentIs inductionHypothesis =>
      rcases List.mem_cons.mp member with rfl | later
      · have spelled := spelled_extent first rest
        rwa [extentIs] at spelled
      · exact inductionHypothesis later

/-- What is spelled like a keyword or a mark is of its kind. -/
theorem Spelled.kind_eq
    {lexeme : Lexeme}
    (spelled : lexeme.Spelled)
    {kind : Kind}
    (listed : (lexeme.text, kind) ∈ spellings) :
    lexeme.kind = kind := by
  have apart : (spellings.map Prod.fst).Nodup := by decide
  rcases spelled with isListed | ⟨_, notListed⟩
  · exact congrArg Prod.snd (List.inj_on_of_nodup_map apart isListed listed rfl)
  · exact absurd (List.mem_map_of_mem listed) notListed

/-- What is of the kind of a keyword or a mark is spelled like it, unless it is an operator. -/
theorem Spelled.text_eq
    {lexeme : Lexeme}
    (spelled : lexeme.Spelled)
    {text : List Char}
    (listed : (text, lexeme.kind) ∈ spellings)
    (notOperator : lexeme.kind ≠ .operator) :
    lexeme.text = text := by
  have apart : ∀ first ∈ spellings, ∀ second ∈ spellings,
      first.2 = second.2 → first.2 ≠ .operator → first.1 = second.1 := by
    decide +kernel
  rcases spelled with isListed | ⟨free, _⟩
  · exact apart _ isListed _ listed rfl notOperator
  · have all : ∀ entry ∈ spellings, isFree entry.2 = false := by decide
    have notFree := all _ listed
    rw [free] at notFree
    cases notFree

end Lexeme

namespace Token

/-! ## The last token that counts -/

/-- The keywords, operators and brackets that a statement can end with. -/
def closers : List (List Char) :=
  [ "break".toList, "continue".toList, "fallthrough".toList, "return".toList, ['+', '+'],
    ['-', '-'], [')'], [']'], ['\x7d'] ]

/-- Whether a statement can end with a token. -/
def CanEndStatement
    (token : Token) :
    Prop :=
  token.kind = .ident ∨ token.kind.isLiteral = true ∨ token.text ∈ closers

/-- The last one of some tokens that is no trivia. -/
def lastSignificant?
    (tokens : List Token) :
    Option Token :=
  (tokens.filter (!·.kind.isTrivia)).getLast?

/-- Whether a line break behind some tokens ends a statement. -/
def EndsStatement
    (tokens : List Token) :
    Prop :=
  ∃ last, lastSignificant? tokens = some last ∧ last.CanEndStatement

theorem lastSignificant?_cons
    (first : Token)
    (rest : List Token) :
    lastSignificant? (first :: rest) =
      (lastSignificant? rest).or (if first.kind.isTrivia then none else some first) := by
  unfold lastSignificant?
  cases trivia : first.kind.isTrivia with
  | true => simp [trivia]
  | false => simp [trivia, List.getLast?_cons, Option.or_some]

theorem lastSignificant?_append
    (front back : List Token) :
    lastSignificant? (front ++ back) = (lastSignificant? back).or (lastSignificant? front) := by
  simp [lastSignificant?, List.getLast?_append]

theorem mem_of_lastSignificant?
    {tokens : List Token}
    {last : Token}
    (isLast : lastSignificant? tokens = some last) :
    last ∈ tokens ∧ last.kind.isTrivia = false := by
  simpa using List.mem_filter.mp (List.mem_of_getLast? isLast)

/--
The flag tells whether the last token that counts can be followed by the end of a statement, and it
is what it was in front of tokens that are all trivia.
-/
theorem pendingBehind_eq
    (lexemes : List Lexeme) :
    ∀ (offset : Nat) (pending : Bool),
      pendingBehind pending lexemes =
        ((lastSignificant? (ofLexemes offset pending lexemes)).map
          (·.kind.triggersSemicolon)).getD pending := by
  induction lexemes with
  | nil => exact fun _ _ => rfl
  | cons lexeme rest inductionHypothesis =>
      intro offset pending
      have behind := inductionHypothesis (offset + Text.byteLength lexeme.text)
        (pendingAfter pending (kindOf pending lexeme))
      have step : pendingBehind pending (lexeme :: rest) =
          pendingBehind (pendingAfter pending (kindOf pending lexeme)) rest :=
        rfl
      rw [step, behind, ofLexemes, lastSignificant?_cons]
      rcases lastSignificant? (ofLexemes _ _ rest) with _ | last
      · cases trivia : (kindOf pending lexeme).isTrivia <;> simp [pendingAfter, trivia]
      · rfl

/-! ## Tokens by their text -/

/-- Every token of some lexemes is one of these, read with the flag up or down. -/
theorem exists_of_mem_ofLexemes
    {lexemes : List Lexeme}
    {token : Token} :
    ∀ {offset : Nat} {pending : Bool},
      token ∈ ofLexemes offset pending lexemes →
      ∃ lexeme ∈ lexemes, ∃ flag, token.kind = kindOf flag lexeme ∧ token.text = lexeme.text := by
  induction lexemes with
  | nil =>
      intro _ _ member
      cases member
  | cons lexeme rest inductionHypothesis =>
      intro offset pending member
      rcases List.mem_cons.mp member with rfl | later
      · exact ⟨lexeme, List.mem_cons_self, pending, rfl, rfl⟩
      · obtain ⟨other, isOther, found⟩ := inductionHypothesis later
        exact ⟨other, List.mem_cons_of_mem lexeme isOther, found⟩

/-- A byte order mark has no fixed spelling either. -/
theorem spelled_of_mem_sourceLexemes
    {text : List Char}
    {lexeme : Lexeme}
    (member : lexeme ∈ sourceLexemes text) :
    lexeme.Spelled := by
  cases text with
  | nil => cases member
  | cons first rest =>
      rw [sourceLexemes] at member
      split at member
      · next isMark =>
          rcases List.mem_cons.mp member with rfl | later
          · rw [eq_of_beq isMark]
            exact .inr ⟨rfl, by decide⟩
          · exact spelled_of_mem later
      · exact spelled_of_mem member

/-- A token is of its lexeme's kind, or it is a line break that ends nothing. -/
theorem kindOf_cases
    (flag : Bool)
    (lexeme : Lexeme) :
    kindOf flag lexeme = lexeme.kind ∨
      kindOf flag lexeme = .whitespace ∧ lexeme.kind = .newline ∧ flag = false := by
  by_cases isBreak : lexeme.kind = .newline
  · rcases flag with _ | _
    · exact .inr ⟨by simp [kindOf, isBreak], isBreak, rfl⟩
    · exact .inl (by simp [kindOf])
  · exact .inl (by simp [kindOf, isBreak])

/-- A keyword, operator or bracket that a statement can end with is of a kind that says so. -/
theorem triggersSemicolon_of_mem_closers
    {text : List Char}
    (isCloser : text ∈ closers) :
    ∃ kind : Kind,
      (text, kind) ∈ spellings ∧ kind.triggersSemicolon = true ∧ kind ≠ .newline := by
  have all : ∀ text ∈ closers, ∃ entry ∈ spellings,
      entry.1 = text ∧ entry.2.triggersSemicolon = true ∧ entry.2 ≠ .newline := by
    decide
  obtain ⟨entry, listed, rfl, triggers, notBreak⟩ := all text isCloser
  exact ⟨entry.2, listed, triggers, notBreak⟩

/-- A kind that says so is that of an identifier, a literal, or such a spelling. -/
theorem mem_closers_of_triggersSemicolon
    {kind : Kind}
    (triggers : kind.triggersSemicolon = true) :
    kind = .ident ∨ kind.isLiteral = true ∨
      kind ≠ .operator ∧ ∃ text ∈ closers, (text, kind) ∈ spellings := by
  have all : kind = .ident ∨ kind.isLiteral = true ∨
      kind ≠ .operator ∧ ∃ entry ∈ spellings, entry.2 = kind ∧ entry.1 ∈ closers := by
    revert triggers
    cases kind <;> decide
  rcases all with isIdent | isLiteral | ⟨notOperator, entry, listed, rfl, isCloser⟩
  · exact .inl isIdent
  · exact .inr (.inl isLiteral)
  · exact .inr (.inr ⟨notOperator, entry.1, isCloser, listed⟩)

/-- The kinds behind which a line break ends a statement are those of what a statement ends with. -/
theorem triggersSemicolon_iff
    {lexeme : Lexeme}
    (spelled : lexeme.Spelled)
    {flag : Bool}
    {token : Token}
    (sameKind : token.kind = kindOf flag lexeme)
    (sameText : token.text = lexeme.text) :
    token.kind.triggersSemicolon = true ↔ token.CanEndStatement := by
  constructor
  · intro triggers
    have known : lexeme.kind = token.kind := by
      rcases kindOf_cases flag lexeme with same | ⟨isBlank, _⟩
      · rw [sameKind, same]
      · rw [sameKind, isBlank] at triggers
        cases triggers
    rcases mem_closers_of_triggersSemicolon triggers with
      isIdent | isLiteral | ⟨notOperator, text, isCloser, listed⟩
    · exact .inl isIdent
    · exact .inr (.inl isLiteral)
    · rw [← known] at listed notOperator
      rw [CanEndStatement, sameText, spelled.text_eq listed notOperator]
      exact .inr (.inr isCloser)
  · rintro (isIdent | isLiteral | isCloser)
    · rw [isIdent]
      rfl
    · have all (kind : Kind) : kind.isLiteral = true → kind.triggersSemicolon = true := by
        cases kind <;> decide
      exact all _ isLiteral
    · rw [sameText] at isCloser
      obtain ⟨kind, listed, triggers, notBreak⟩ := triggersSemicolon_of_mem_closers isCloser
      have known := spelled.kind_eq listed
      rcases kindOf_cases flag lexeme with same | ⟨_, isBreak, _⟩
      · rw [sameKind, same, known]
        exact triggers
      · rw [known] at isBreak
        exact absurd isBreak notBreak

/-! ## Line breaks -/

section Boundary

variable
  {source : String}
  {front back : List Token}
  {token : Token}

/-- A token of a text is read from a lexeme, with the flag up where a statement can end. -/
theorem reads_of_boundary
    (boundary : ofSource source = front ++ token :: back) :
    ∃ lexeme flag,
      lexeme.Spelled ∧ token.kind = kindOf flag lexeme ∧ token.text = lexeme.text ∧
        (flag = true ↔ EndsStatement front) := by
  obtain ⟨inFront, inBack, behind, reads, rfl, others⟩ := lexemes_of_boundary boundary
  rcases inBack with _ | ⟨lexeme, inBack⟩
  · cases others
  · obtain ⟨isToken, _⟩ := List.cons.inj others
    have spelled (other : Lexeme) (member : other ∈ inFront ++ lexeme :: inBack) : other.Spelled :=
      spelled_of_mem_sourceLexemes (reads ▸ member)
    refine ⟨lexeme, pendingBehind false inFront, spelled lexeme (by simp), ?_, ?_, ?_⟩
    · rw [← isToken]
    · rw [← isToken]
    · rw [pendingBehind_eq inFront 0 false, EndsStatement]
      rcases isLast : lastSignificant? (ofLexemes 0 false inFront) with _ | last
      · simp
      · obtain ⟨other, isOther, flag, sameKind, sameText⟩ :=
          exists_of_mem_ofLexemes (mem_of_lastSignificant? isLast).1
        have same := triggersSemicolon_iff (spelled other (List.mem_append_left _ isOther))
          sameKind sameText
        simpa using same

/-- A line break ends a statement behind what a statement can end with, or it is white space. -/
theorem kind_of_lineBreak
    (boundary : ofSource source = front ++ token :: back)
    (isBreak : token.text = ['\n']) :
    (EndsStatement front → token.kind = .newline) ∧
      (¬EndsStatement front → token.kind = .whitespace) := by
  obtain ⟨lexeme, flag, spelled, sameKind, sameText, raised⟩ := reads_of_boundary boundary
  have known : lexeme.kind = .newline := by
    apply spelled.kind_eq
    rw [← sameText, isBreak]
    exact newline_mem_spellings
  constructor
  · intro ends
    rw [sameKind, raised.mpr ends]
    simpa [kindOf] using known
  · intro goesOn
    have lowered : flag = false := eq_false_of_ne_true fun up => goesOn (raised.mp up)
    rw [sameKind, lowered]
    simp [kindOf, known]

/-- What ends a statement is a line break, and a statement can end in front of it. -/
theorem ends_of_newline
    (boundary : ofSource source = front ++ token :: back)
    (isEnd : token.kind = .newline) :
    token.text = ['\n'] ∧ EndsStatement front := by
  obtain ⟨lexeme, flag, spelled, sameKind, sameText, raised⟩ := reads_of_boundary boundary
  rw [isEnd] at sameKind
  have known : lexeme.kind = .newline := by
    rcases kindOf_cases flag lexeme with same | ⟨_, isBreak, _⟩
    · rw [sameKind, same]
    · exact isBreak
  constructor
  · rw [sameText]
    apply spelled.text_eq
    · rw [known]
      exact newline_mem_spellings
    · rw [known]
      decide
  · apply raised.mp
    by_contra lowered
    simp [kindOf, known, eq_false_of_ne_true lowered] at sameKind

end Boundary

/-- No kind behind which a line break ends a statement is that of one. -/
theorem ne_newline_of_triggersSemicolon
    {kind : Kind}
    (triggers : kind.triggersSemicolon = true) :
    kind ≠ .newline := by
  rintro rfl
  cases triggers

/-- What a statement can end with in a text is no line break. -/
theorem ne_newline_of_canEndStatement
    {source : String}
    {token : Token}
    (member : token ∈ ofSource source)
    (canEnd : token.CanEndStatement) :
    token.kind ≠ .newline := by
  obtain ⟨lexeme, isLexeme, flag, sameKind, sameText⟩ := exists_of_mem_ofLexemes member
  have spelled := spelled_of_mem_sourceLexemes isLexeme
  exact ne_newline_of_triggersSemicolon
    ((triggersSemicolon_iff spelled sameKind sameText).mpr canEnd)

/-- Behind a line break a statement ends only where something stands that counts. -/
theorem exists_of_endsStatement
    {source : String}
    {front between back : List Token}
    {first : Token}
    (boundary : ofSource source = front ++ first :: (between ++ back))
    (isBreak : first.kind = .newline)
    (ends : EndsStatement (front ++ first :: between)) :
    ∃ other ∈ between, other.kind.isTrivia = false ∧ other.kind ≠ .newline := by
  obtain ⟨last, isLast, canEnd⟩ := ends
  obtain ⟨member, counts⟩ := mem_of_lastSignificant? isLast
  have inSource : last ∈ ofSource source := by
    rw [boundary, ← List.cons_append, ← List.append_assoc]
    exact List.mem_append_left back member
  have notBreak := ne_newline_of_canEndStatement inSource canEnd
  rw [lastSignificant?_append, lastSignificant?_cons] at isLast
  rcases inBetween : lastSignificant? between with _ | other
  · -- Otherwise the first line break is the last token that counts, and no statement ends with it.
    have itself : first = last := by
      simpa [inBetween, isBreak, Kind.isTrivia] using isLast
    rw [itself] at isBreak
    exact absurd isBreak notBreak
  · obtain rfl : other = last := by simpa [inBetween] using isLast
    exact ⟨other, (mem_of_lastSignificant? inBetween).1, counts, notBreak⟩

/-- How the line breaks among the tokens of a text are read. -/
structure BreaksLines
    (tokens : List Token) :
    Prop where
  /-- A line break ends a statement exactly behind what a statement can end with. -/
  lineBreak :
    ∀ {front token back},
      tokens = front ++ token :: back →
      token.text = ['\n'] →
        (EndsStatement front → token.kind = .newline) ∧
          (¬EndsStatement front → token.kind = .whitespace)
  /-- Nothing else ends a statement like this. -/
  text :
    ∀ token ∈ tokens, token.kind = .newline → token.text = ['\n']
  /-- Between two line breaks that end statements stands something that counts. -/
  between :
    ∀ {front first between second back},
      tokens = front ++ first :: (between ++ second :: back) →
      first.kind = .newline →
      second.kind = .newline →
        ∃ other ∈ between, other.kind.isTrivia = false ∧ other.kind ≠ .newline
  /-- In front of a line break that ends a statement stands something that counts. -/
  first :
    ∀ {front token back},
      tokens = front ++ token :: back →
      token.kind = .newline →
        ∃ other ∈ front, other.kind.isTrivia = false

/-- The line breaks of every text are read by the last token in front of them that is no trivia. -/
theorem breaksLines_ofSource
    (source : String) :
    BreaksLines (ofSource source) where
  lineBreak boundary isBreak := kind_of_lineBreak boundary isBreak
  text token member isEnd := by
    obtain ⟨front, back, boundary⟩ := List.append_of_mem member
    exact (ends_of_newline boundary isEnd).1
  between {front first between second back} boundary isFirst isSecond := by
    have place : ofSource source = front ++ first :: between ++ second :: back := by
      simpa using boundary
    exact exists_of_endsStatement boundary isFirst (ends_of_newline place isSecond).2
  first boundary isEnd := by
    obtain ⟨last, isLast, _⟩ := (ends_of_newline boundary isEnd).2
    exact ⟨last, mem_of_lastSignificant? isLast⟩

/-! The first line break ends the clause, and the second one, behind a comment, ends nothing. -/

example :
    (ofSource "package p\n// a\n").map Token.kind =
      [.packageKeyword, .whitespace, .ident, .newline, .lineComment, .whitespace] := by
  decide +kernel

end Token

end Implementers.Syntax
