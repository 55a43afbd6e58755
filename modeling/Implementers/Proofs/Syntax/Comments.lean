import Implementers.Proofs.Syntax.Cut
import Implementers.Proofs.Syntax.Tokens
import Implementers.Syntax.Parse

namespace Implementers.Syntax

/-!
# General comments between two tokens

Whatever is put between two tokens with a space in front of it leaves the tokens in front of it as
they are, unless the last one of these is a line comment or an error.  A general comment put there
with a space behind it is not read as white space, though: it is an error up to its last slash, and
this slash is an operator.  All that it leaves of the other tokens is what they are without a line
break that ended a statement directly behind it.
-/

open Lexeme

namespace Lexeme

/-- Whether the last one of some lexemes ends where it does whatever stands behind a space. -/
def Settled
    (lexemes : List Lexeme) :
    Prop :=
  ∀ last ∈ lexemes.getLast?, last.kind ≠ .lineComment ∧ last.kind ≠ .error

theorem ofText_cons
    (first : Char)
    (rest : List Char) :
    ofText (first :: rest) =
      ⟨(extent first rest).1, first :: rest.take (extent first rest).2⟩ ::
        ofText (rest.drop (extent first rest).2) := by
  rw [ofText]

/-- Behind some of its lexemes a text is read as the others. -/
theorem ofText_behind
    {text : List Char}
    {front back : List Lexeme}
    (reads : ofText text = front ++ back) :
    ofText (back.flatMap Lexeme.text) = back := by
  induction front generalizing text with
  | nil =>
      rw [List.nil_append] at reads
      rw [← reads, flatMap_text_ofText]
  | cons first front inductionHypothesis =>
      cases text with
      | nil =>
          rw [ofText] at reads
          cases reads
      | cons character rest =>
          rw [ofText_cons, List.cons_append] at reads
          exact inductionHypothesis (List.cons.inj reads).2

/-- Some lexemes of a text whose texts are empty are none. -/
theorem eq_nil_of_text
    {text : List Char}
    {front back : List Lexeme}
    (reads : ofText text = front ++ back)
    (none : front.flatMap Lexeme.text = []) :
    front = [] :=
  List.eq_nil_iff_forall_not_mem.mpr fun lexeme member =>
    text_ne_nil (reads ▸ List.mem_append_left back member : lexeme ∈ ofText text)
      (List.flatMap_eq_nil_iff.mp none lexeme member)

theorem Settled.tail
    {lexeme : Lexeme}
    {front : List Lexeme}
    (settled : Settled (lexeme :: front)) :
    Settled front := by
  intro last isLast
  apply settled last
  rw [Option.mem_def] at isLast ⊢
  rw [List.getLast?_cons, isLast]
  rfl

/-- A single backslash is read as an error. -/
theorem error_of_backslash
    {text : List Char}
    {front back : List Lexeme}
    (reads : ofText text = front ++ back)
    (escape : front.flatMap Lexeme.text = ['\\']) :
    front = [⟨.error, ['\\']⟩] := by
  cases front with
  | nil => cases escape
  | cons first front =>
      have whole := flatMap_text_ofText text
      rw [reads, List.flatMap_append, escape] at whole
      subst whole
      have isError : extent '\\' (back.flatMap Lexeme.text) = (.error, 0) := rfl
      rw [List.singleton_append, ofText_cons, isError, List.cons_append] at reads
      obtain ⟨rfl, others⟩ := List.cons.inj reads
      rw [eq_nil_of_text others (by simpa using escape)]
      rfl

/-- The first lexeme of a text is as long as its extent. -/
theorem length_take_extent
    (first : Char)
    (rest : List Char) :
    (rest.take (extent first rest).2).length = (extent first rest).2 :=
  List.length_take_of_le (extent_le first rest)

/-- A text is its first lexeme and the lexemes behind it. -/
theorem take_extent_append
    {first : Char}
    {rest : List Char}
    {front back : List Lexeme}
    (others : ofText (rest.drop (extent first rest).2) = front ++ back) :
    rest.take (extent first rest).2 ++ front.flatMap Lexeme.text ++ back.flatMap Lexeme.text =
      rest := by
  have behind := flatMap_text_ofText (rest.drop (extent first rest).2)
  rw [others, List.flatMap_append] at behind
  rw [List.append_assoc, behind, List.take_append_drop]

/-- The first of several lexemes in front of a cut ends as before, unless it is white space. -/
theorem extent_cut
    {first : Char}
    {rest : List Char}
    {front back : List Lexeme}
    (notSpace : isInlineSpace first = false)
    (others : ofText (rest.drop (extent first rest).2) = front ++ back)
    (settled : Settled
      (⟨(extent first rest).1, first :: rest.take (extent first rest).2⟩ :: front))
    (more : List Char) :
    extent first
        (rest.take (extent first rest).2 ++ front.flatMap Lexeme.text ++ ' ' :: more) =
      extent first rest := by
  have long := length_take_extent first rest
  have cut := @extent_blank
    (rest.take (extent first rest).2 ++ front.flatMap Lexeme.text)
    (back.flatMap Lexeme.text) more first notSpace
  rw [take_extent_append others] at cut
  apply cut
  · rw [List.length_append, long]
    exact Nat.le_add_right _ _
  · -- The first lexeme ends at the cut, so that it is the last one.
    intro all
    rw [List.length_append, long] at all
    have none : front.flatMap Lexeme.text = [] :=
      List.length_eq_zero_iff.mp (by omega)
    rw [eq_nil_of_text others none] at settled
    exact settled _ rfl
  · intro escape
    rw [List.drop_append_of_le_length long.ge, List.drop_of_length_le long.le,
      List.nil_append] at escape
    have isError := error_of_backslash others escape
    subst isError
    exact (settled ⟨.error, ['\\']⟩ rfl).2 rfl

/-- The first of several lexemes in front of a cut is read as before, unless it is white space. -/
theorem leads_cut
    {text : List Char}
    {lexeme : Lexeme}
    {front back : List Lexeme}
    (reads : ofText text = lexeme :: front ++ back)
    (settled : Settled (lexeme :: front))
    (notSpace : ∀ character ∈ text.head?, isInlineSpace character = false)
    (more : List Char) :
    Leads lexeme (front.flatMap Lexeme.text ++ ' ' :: more) := by
  cases text with
  | nil =>
      rw [ofText] at reads
      cases reads
  | cons first rest =>
      rw [ofText_cons, List.cons_append] at reads
      obtain ⟨rfl, others⟩ := List.cons.inj reads
      apply leads_of_extent
      rw [← List.append_assoc, extent_cut (notSpace first rfl) others settled more,
        length_take_extent]

end Lexeme

namespace Token

/-! ## Lexemes that count in front of a cut -/

/-- Whether a line break would end a statement behind lexemes. -/
def pendingBehind
    (pending : Bool)
    (lexemes : List Lexeme) :
    Bool :=
  lexemes.foldl (fun pending lexeme => pendingAfter pending (kindOf pending lexeme)) pending

theorem counting_whitespace
    (pending : Bool)
    (text : List Char)
    (rest : List Lexeme) :
    counting pending (⟨.whitespace, text⟩ :: rest) = counting pending rest :=
  rfl

/-- A blank in front of a text does not count. -/
theorem counting_blank
    {blank : Char}
    (inline : isInlineSpace blank = true)
    (pending : Bool)
    (text : List Char) :
    counting pending (ofText (blank :: text)) = counting pending (ofText text) := by
  have reads {blank : Char} (inline : isInlineSpace blank = true) (rest : List Char) :
      counting pending (ofText (blank :: rest)) =
        counting pending (ofText (rest.drop (run isInlineSpace rest))) := by
    rw [ofText_cons, extent_inlineSpace inline, counting_whitespace]
  rw [reads inline]
  cases text with
  | nil => rfl
  | cons next rest =>
      rw [run_cons]
      split
      · next isNext => rw [List.drop_succ_cons, reads isNext]
      · rw [List.drop_zero]

/-- Blanks in front of a text do not count. -/
theorem counting_blanks
    {blanks : List Char}
    (inline : ∀ blank ∈ blanks, isInlineSpace blank = true)
    (pending : Bool)
    (text : List Char) :
    counting pending (ofText (blanks ++ text)) = counting pending (ofText text) := by
  induction blanks with
  | nil => rfl
  | cons blank blanks inductionHypothesis =>
      rw [List.cons_append, counting_blank (inline blank List.mem_cons_self),
        inductionHypothesis fun other member => inline other (List.mem_cons_of_mem blank member)]

/--
Lexemes in front of a cut count as before whatever stands behind a space, and what stands there
counts as it does behind them.
-/
theorem counting_cut
    (more : List Char)
    {back : List Lexeme} :
    ∀ {front : List Lexeme} {text : List Char} (pending : Bool),
      ofText text = front ++ back →
      Settled front →
      counting pending (ofText (front.flatMap Lexeme.text ++ ' ' :: more)) =
        counting pending front ++ counting (pendingBehind pending front) (ofText more)
  | [], _, pending, _, _ => counting_blank rfl pending more
  | lexeme :: front, [], _, reads, _ => by
      rw [ofText] at reads
      cases reads
  | lexeme :: front, first :: rest, pending, reads, settled => by
      have others : ofText (rest.drop (extent first rest).2) = front ++ back := by
        rw [ofText_cons, List.cons_append] at reads
        exact (List.cons.inj reads).2
      have behind (pending : Bool) := counting_cut more pending others settled.tail
      rw [List.flatMap_cons, List.append_assoc]
      cases isBlank : isInlineSpace first with
      | true =>
          rw [ofText_cons, extent_inlineSpace isBlank, List.cons_append] at reads
          obtain ⟨rfl, _⟩ := List.cons.inj reads
          have inline : ∀ blank ∈ first :: rest.take (run isInlineSpace rest),
              isInlineSpace blank = true := by
            have taken : rest.take (run isInlineSpace rest) = rest.takeWhile isInlineSpace :=
              (List.prefix_iff_eq_take.mp (List.takeWhile_prefix isInlineSpace)).symm
            rw [taken]
            exact List.forall_mem_cons.mpr ⟨isBlank, List.all_eq_true.mp List.all_takeWhile⟩
          rw [counting_blanks inline, behind]
          rfl
      | false =>
          have leads := leads_cut reads settled (by simpa using isBlank) more
          rw [leads, counting, counting, behind]
          split <;> rfl

/-- A line break in front of a blank counts if it ends a statement, and none does behind it. -/
theorem counting_lineBreak
    (pending : Bool)
    (next : List Char) :
    counting pending (ofText ('\n' :: ' ' :: next)) =
      (if pending then [lineBreak] else []) ++ counting false (ofText next) := by
  have leads : ofText ('\n' :: ' ' :: next) = lineBreak :: ofText (' ' :: next) :=
    leads_lineBreak (' ' :: next)
  have skipped : counting false (ofText (' ' :: next)) = counting false (ofText next) :=
    counting_blank rfl false next
  rw [leads, ← skipped]
  cases pending <;> rfl

/-- A line break that would end a statement is all that counts more where one would. -/
theorem counting_pending
    (lexemes : List Lexeme) :
    counting true lexemes = counting false lexemes ∨
      ∃ lineBreak : Lexeme, lineBreak.kind = .newline ∧
        counting true lexemes = lineBreak :: counting false lexemes := by
  induction lexemes with
  | nil => exact .inl rfl
  | cons first rest inductionHypothesis =>
      by_cases isBreak : first.kind = .newline
      · refine .inr ⟨⟨.newline, first.text⟩, rfl, ?_⟩
        simp [counting, kindOf, isBreak, Kind.isTrivia, pendingAfter, Kind.triggersSemicolon]
      · have sameKind (pending : Bool) : kindOf pending first = first.kind := by
          simp [kindOf, isBreak]
        cases trivia : first.kind.isTrivia with
        | true => simpa [counting, sameKind, trivia, pendingAfter] using inductionHypothesis
        | false => exact .inl (by simp [counting, sameKind, trivia, pendingAfter])

/-- Whether a line break would end a statement does not matter to the errors that count. -/
theorem countP_counting
    (pending : Bool)
    (lexemes : List Lexeme) :
    (counting pending lexemes).countP (·.kind == .error) =
      (counting false lexemes).countP (·.kind == .error) := by
  cases pending with
  | false => rfl
  | true =>
      rcases counting_pending lexemes with same | ⟨lineBreak, isBreak, same⟩
      · rw [same]
      · rw [same, List.countP_cons_of_neg (by simp [isBreak])]

end Token

/-! ## General comments -/

/-- A general comment, by what stands between its marks. -/
structure GeneralComment where
  body : List Char
  closedOnce : ¬['*', '/'] <:+: body

namespace GeneralComment

variable (comment : GeneralComment)

/-- The text of a general comment. -/
def text : List Char :=
  '/' :: '*' :: (comment.body ++ ['*', '/'])

/-- The lexemes that a general comment is read as. -/
def pieces : List Lexeme :=
  [⟨.error, '/' :: '*' :: (comment.body ++ ['*'])⟩, ⟨.operator, ['/']⟩]

/-- The first end of a comment is where it is closed. -/
theorem commentLength_body
    {body : List Char}
    (closedOnce : ¬['*', '/'] <:+: body)
    (more : List Char) :
    commentLength (body ++ '*' :: '/' :: more) = body.length + 1 := by
  induction body with
  | nil => rfl
  | cons character body inductionHypothesis =>
      have inner : ¬['*', '/'] <:+: body := fun inside => closedOnce (List.infix_cons inside)
      have goesOn : ∀ rest, character = '*' → body ++ '*' :: '/' :: more = '/' :: rest → False := by
        rintro rest rfl isSlash
        cases body with
        | nil => simp at isSlash
        | cons next body =>
            obtain ⟨rfl, _⟩ := List.cons.inj isSlash
            exact closedOnce ⟨[], body, rfl⟩
      rw [List.cons_append, commentLength, inductionHypothesis inner, List.length_cons]
      · omega
      · exact goesOn

/-- In front of a space a general comment is read as an error up to its last slash. -/
theorem ofText_text
    (next : List Char) :
    ofText (comment.text ++ ' ' :: next) = comment.pieces ++ ofText (' ' :: next) := by
  have isError :
      extent '/' ('*' :: (comment.body ++ ['*']) ++ '/' :: ' ' :: next) =
        (.error, ('*' :: (comment.body ++ ['*'])).length) := by
    have length := commentLength_body comment.closedOnce (' ' :: next)
    rw [extent_slash]
    simp [length]
    omega
  have error : Leads ⟨.error, '/' :: '*' :: (comment.body ++ ['*'])⟩ ('/' :: ' ' :: next) :=
    leads_of_extent isError
  have operator : Leads ⟨.operator, ['/']⟩ (' ' :: next) := leads_of_extent rfl
  have split :
      comment.text ++ ' ' :: next =
        '/' :: '*' :: (comment.body ++ ['*']) ++ '/' :: ' ' :: next := by
    simp [text]
  rw [split, error]
  exact congrArg (_ :: ·) operator

/-- Behind a general comment no line break ends a statement. -/
theorem counting_text
    (pending : Bool)
    (next : List Char) :
    Token.counting pending (ofText (comment.text ++ ' ' :: next)) =
      comment.pieces ++ Token.counting false (ofText next) := by
  have skipped : Token.counting false (ofText (' ' :: next)) = Token.counting false (ofText next) :=
    Token.counting_blank rfl false next
  rw [comment.ofText_text, ← skipped]
  rfl

end GeneralComment

namespace Token

/-! ## Tokens at a boundary -/

/-- The tokens that are no trivia, by kind and text. -/
def significant
    (tokens : List Token) :
    List Lexeme :=
  (tokens.filter (!·.kind.isTrivia)).map lexeme

/-- The number of tokens that are errors. -/
def errors
    (tokens : List Token) :
    Nat :=
  tokens.countP (·.kind == .error)

/-- The source text of tokens with something inserted between them, a space on either side of it. -/
def inserted
    (front : List Token)
    (piece : List Char)
    (back : List Token) :
    String :=
  String.ofList (front.flatMap Token.text ++ ' ' :: (piece ++ ' ' :: back.flatMap Token.text))

theorem errors_eq
    (tokens : List Token) :
    errors tokens = (significant tokens).countP (·.kind == .error) := by
  rw [errors, significant, List.countP_map, List.countP_filter]
  refine List.countP_congr fun token _ => ?_
  constructor
  · intro isError
    simp [lexeme, eq_of_beq isError, Kind.isTrivia]
  · intro isError
    exact (Bool.and_eq_true_iff.mp isError).1

theorem ofLexemes_append
    (back : List Lexeme) :
    ∀ (front : List Lexeme) (offset : Nat) (pending : Bool),
      ∃ behind, ofLexemes offset pending (front ++ back) =
        ofLexemes offset pending front ++ ofLexemes behind (pendingBehind pending front) back
  | [], offset, _ => ⟨offset, rfl⟩
  | first :: front, offset, pending => by
      obtain ⟨behind, others⟩ := ofLexemes_append back front
        (offset + Text.byteLength first.text) (pendingAfter pending (kindOf pending first))
      exact ⟨behind, congrArg (_ :: ·) others⟩

/-- A boundary between tokens is one between lexemes. -/
theorem lexemes_of_boundary
    {source : String}
    {front back : List Token}
    (boundary : ofSource source = front ++ back) :
    ∃ inFront inBack behind,
      sourceLexemes source.toList = inFront ++ inBack ∧
        ofLexemes 0 false inFront = front ∧
          ofLexemes behind (pendingBehind false inFront) inBack = back := by
  have sameLength (lexemes : List Lexeme) :
      (ofLexemes 0 false lexemes).length = lexemes.length := by
    have texts := congrArg List.length (@ofLexemes_facts lexemes 0 false).1
    rwa [List.length_map, List.length_map] at texts
  have whole := List.take_append_drop front.length (sourceLexemes source.toList)
  obtain ⟨behind, parts⟩ := ofLexemes_append
    ((sourceLexemes source.toList).drop front.length)
    ((sourceLexemes source.toList).take front.length) 0 false
  rw [whole, ← ofSource, boundary] at parts
  have short : front.length ≤ (sourceLexemes source.toList).length := by
    rw [← sameLength, ← ofSource, boundary, List.length_append]
    exact Nat.le_add_right _ _
  have sides := List.append_inj parts.symm (by rw [sameLength, List.length_take_of_le short])
  exact ⟨_, _, behind, whole.symm, sides⟩

/-- The last of some tokens is of its lexeme's kind, unless it is a line break that ends nothing. -/
theorem settled_of_last
    {offset : Nat}
    {pending : Bool}
    {lexemes : List Lexeme}
    {last : Token}
    (isLast : (ofLexemes offset pending lexemes).getLast? = some last)
    (settled : last.kind ≠ .lineComment ∧ last.kind ≠ .error) :
    lexemes ≠ [] ∧ Settled lexemes := by
  rcases List.eq_nil_or_concat lexemes with rfl | ⟨front, lexeme, rfl⟩
  · cases isLast
  · rw [List.concat_eq_append] at isLast ⊢
    obtain ⟨behind, parts⟩ := ofLexemes_append [lexeme] front offset pending
    rw [parts, List.getLast?_append_of_ne_nil _ (by simp [ofLexemes])] at isLast
    have sameKind : kindOf (pendingBehind pending front) lexeme = last.kind :=
      congrArg Token.kind (Option.some.inj isLast)
    refine ⟨by simp, fun other isOther => ?_⟩
    obtain rfl : lexeme = other := by simpa using isOther
    rw [← sameKind] at settled
    constructor
    · intro isComment
      exact settled.1 (by simp [kindOf, isComment])
    · intro isError
      exact settled.2 (by simp [kindOf, isError])

/-- A source text is read as before in front of a cut. -/
theorem counting_source
    {text : List Char}
    {front back : List Lexeme}
    (reads : sourceLexemes text = front ++ back)
    (some : front ≠ [])
    (settled : Settled front) :
    ofText (back.flatMap Lexeme.text) = back ∧
      ∀ more, counting false (sourceLexemes (front.flatMap Lexeme.text ++ ' ' :: more)) =
        counting false front ++ counting (pendingBehind false front) (ofText more) := by
  obtain ⟨lexeme, front, rfl⟩ := List.exists_cons_of_ne_nil some
  cases text with
  | nil => cases reads
  | cons first rest =>
      rw [sourceLexemes] at reads
      by_cases isMark : (first == byteOrderMark) = true
      · rw [if_pos isMark, List.cons_append] at reads
        obtain ⟨rfl, others⟩ := List.cons.inj reads
        refine ⟨ofText_behind others, fun more => ?_⟩
        rw [List.flatMap_cons, List.append_assoc, List.singleton_append, sourceLexemes,
          if_pos isMark, counting_whitespace, counting_cut more false others settled.tail]
        rfl
      · rw [if_neg isMark] at reads
        refine ⟨ofText_behind reads, fun more => ?_⟩
        have begins : lexeme.text = first :: rest.take (extent first rest).2 := by
          rw [ofText_cons, List.cons_append] at reads
          exact congrArg Lexeme.text (List.cons.inj reads).1.symm
        rw [← counting_cut more false reads settled, List.flatMap_cons, begins, List.cons_append,
          List.cons_append, sourceLexemes, if_neg isMark]

section Boundary

variable
  {source : String}
  {front back : List Token}
  {last : Token}

/--
The tokens in front of a boundary count as before whatever stands behind a space, and what stands
there counts as it does behind them.
-/
theorem significant_cut
    (boundary : ofSource source = front ++ back)
    (isLast : front.getLast? = some last)
    (settled : last.kind ≠ .lineComment ∧ last.kind ≠ .error) :
    ∃ pending,
      significant back = counting pending (ofText (back.flatMap Token.text)) ∧
        ∀ more, significant (ofSource (String.ofList (front.flatMap Token.text ++ ' ' :: more))) =
          significant front ++ counting pending (ofText more) := by
  obtain ⟨inFront, inBack, behind, reads, rfl, rfl⟩ := lexemes_of_boundary boundary
  obtain ⟨some, settledFront⟩ := settled_of_last isLast settled
  obtain ⟨again, cut⟩ := counting_source reads some settledFront
  have texts (offset : Nat) (pending : Bool) (lexemes : List Lexeme) :
      (ofLexemes offset pending lexemes).flatMap Token.text = lexemes.flatMap Lexeme.text := by
    rw [List.flatMap_def, (ofLexemes_facts lexemes).1, ← List.flatMap_def]
  refine ⟨pendingBehind false inFront, ?_, fun more => ?_⟩
  · rw [texts, again]
    exact significant_ofLexemes _ _ _
  · rw [texts, significant, ofSource, String.toList_ofList, significant_ofLexemes, cut,
      significant, significant_ofLexemes]

/--
A general comment at a boundary between two tokens is read as an error and an operator.  The other
tokens count as before, except that a line break directly behind the comment ends no statement.  So
there is one error more than in the text without the comment, and than in the text with a line break
in the place of the comment.
-/
theorem ofSource_comment
    (boundary : ofSource source = front ++ back)
    (isLast : front.getLast? = some last)
    (settled : last.kind ≠ .lineComment ∧ last.kind ≠ .error)
    (comment : GeneralComment) :
    (∃ others,
      significant (ofSource (inserted front comment.text back)) =
        significant front ++ (comment.pieces ++ others) ∧
      (significant back = others ∨
        ∃ lineBreak : Lexeme, lineBreak.kind = .newline ∧
          significant back = lineBreak :: others)) ∧
    errors (ofSource (inserted front comment.text back)) = errors (ofSource source) + 1 ∧
    errors (ofSource (inserted front ['\n'] back)) = errors (ofSource source) := by
  obtain ⟨pending, behind, cut⟩ := significant_cut boundary isLast settled
  have commented :
      significant (ofSource (inserted front comment.text back)) =
        significant front ++
          (comment.pieces ++ counting false (ofText (back.flatMap Token.text))) := by
    rw [inserted, cut, comment.counting_text]
  have less :
      significant back = counting false (ofText (back.flatMap Token.text)) ∨
        ∃ lineBreak : Lexeme, lineBreak.kind = .newline ∧
          significant back = lineBreak :: counting false (ofText (back.flatMap Token.text)) := by
    rw [behind]
    cases pending with
    | false => exact .inl rfl
    | true => exact counting_pending _
  have whole :
      errors (ofSource source) =
        errors front +
          (counting false (ofText (back.flatMap Token.text))).countP (·.kind == .error) := by
    rw [boundary, errors, List.countP_append, ← errors, ← errors, errors_eq back, behind,
      countP_counting]
  have broken :
      significant (ofSource (inserted front ['\n'] back)) =
        significant front ++ ((if pending then [lineBreak] else []) ++
          counting false (ofText (back.flatMap Token.text))) := by
    rw [inserted, cut, ← counting_lineBreak]
    rfl
  refine ⟨⟨_, commented, less⟩, ?_, ?_⟩
  · have oneError : comment.pieces.countP (·.kind == .error) = 1 := rfl
    rw [whole, errors_eq, errors_eq, commented, List.countP_append, List.countP_append, oneError]
    omega
  · rw [whole, errors_eq, errors_eq, broken, List.countP_append]
    cases pending with
    | false => rfl
    | true => rfl

end Boundary

/-! A comment behind the name of a package, in front of the line break that ends the clause. -/

namespace Trailing

/-- The tokens of the package clause. -/
def clause : List Token :=
  [ ⟨.packageKeyword, "package".toList, 0⟩, ⟨.whitespace, [' '], 7⟩, ⟨.ident, ['p'], 8⟩ ]

/-- The line break behind it. -/
def lineEnd : List Token :=
  [⟨.newline, ['\n'], 9⟩]

/-- A comment on one line. -/
def short : GeneralComment :=
  ⟨['c'], by decide⟩

/-- A comment with a line break. -/
def spanning : GeneralComment :=
  ⟨['\n'], by decide⟩

theorem ofSource_comment_trailing :
    ofSource "package p\n" = clause ++ lineEnd ∧
    clause.getLast? = some ⟨.ident, ['p'], 8⟩ ∧
    (∃ others,
      significant (ofSource "package p /*c*/ \n") =
        significant clause ++ (short.pieces ++ others) ∧
      (significant lineEnd = others ∨
        ∃ lineBreak : Lexeme, lineBreak.kind = .newline ∧
          significant lineEnd = lineBreak :: others)) ∧
    errors (ofSource "package p /*c*/ \n") = errors (ofSource "package p\n") + 1 ∧
    errors (ofSource "package p \n \n") = errors (ofSource "package p\n") :=
  have boundary : ofSource "package p\n" = clause ++ lineEnd := by decide +kernel
  have commented : inserted clause short.text lineEnd = "package p /*c*/ \n" := rfl
  have broken : inserted clause ['\n'] lineEnd = "package p \n \n" := rfl
  have isLast : clause.getLast? = some ⟨.ident, ['p'], 8⟩ := rfl
  ⟨boundary, isLast,
    commented ▸ broken ▸ ofSource_comment boundary isLast ⟨by decide, by decide⟩ short⟩

/-- Neither comment is transparent, and the parser meets an error that is not there without it. -/
theorem comments_count :
    ofSource "package p\n" = clause ++ lineEnd ∧
    significant (ofSource (inserted clause short.text lineEnd)) ≠
      significant (ofSource "package p\n") ∧
    (significant (ofSource (inserted clause spanning.text lineEnd))).map Lexeme.kind ≠
      (significant (ofSource (inserted clause ['\n'] lineEnd))).map Lexeme.kind ∧
    (Parse.ofText "package p\n").errors = [] ∧
    (Parse.ofText (inserted clause short.text lineEnd)).errors ≠ [] := by
  decide +kernel

end Trailing

end Token

end Implementers.Syntax
