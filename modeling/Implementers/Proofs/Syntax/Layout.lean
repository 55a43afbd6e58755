import Implementers.Proofs.Syntax.Lexing

namespace Implementers.Syntax

/-!
# Lexemes laid out as source text

Lexemes may be written with any white space between them, as long as two of them that would be read
as something else side by side are kept apart.  Cutting the text gives the lexemes back, and the
white space between them does not count.
-/

open Lexeme

/-- White space to be put between lexemes, by the number of those before it. -/
structure Layout where
  blanks : Nat → List Char
  inline : ∀ index, (blanks index).all isInlineSpace = true
  /-- Whether items between braces stand on lines of their own. -/
  lines : Bool

namespace Layout

/-- How the items between braces are kept apart. -/
def style
    (layout : Layout) :
    ItemStyle :=
  if layout.lines then .lines else .semicolons

/-- The white space between two lexemes: one space at least where they must be kept apart. -/
def gap
    (layout : Layout)
    (index : Nat)
    (left right : Lexeme) :
    List Lexeme :=
  match layout.blanks index with
  | [] => if left.clashes right then [⟨.whitespace, [' ']⟩] else []
  | first :: rest => [⟨.whitespace, first :: rest⟩]

/-- Lexemes with white space between them, where a number of others stand before them. -/
def spread
    (layout : Layout)
    (index : Nat) :
    List Lexeme → List Lexeme
  | [] => []
  | [last] => [last]
  | left :: right :: rest =>
      left :: (layout.gap index left right ++ layout.spread (index + 1) (right :: rest))

/-- The text of lexemes with white space between them. -/
def text
    (layout : Layout)
    (lexemes : List Lexeme) :
    List Char :=
  (layout.spread 0 lexemes).flatMap Lexeme.text

section Reading

variable (layout : Layout)

/-- White space between two lexemes is read between them. -/
theorem leads_blanks
    {left right : Lexeme}
    {first : Char}
    (plain : left.Plain)
    (begins : right.Begins first)
    {blanks : List Char}
    (some : blanks ≠ [])
    (inline : blanks.all isInlineSpace = true)
    (next : List Char) :
    ofText (left.text ++ (blanks ++ (right.text ++ next))) =
      left :: ⟨.whitespace, blanks⟩ :: ofText (right.text ++ next) := by
  obtain ⟨rest, text⟩ := begins.text
  cases blanks with
  | nil => exact absurd rfl some
  | cons blank more =>
      have blankLeads : Leads ⟨.whitespace, blank :: more⟩ (right.text ++ next) :=
        leads_blank inline fun character isFirst => by
          rw [text] at isFirst
          cases isFirst
          exact begins.notSpace
      have leftLeads : Leads left (blank :: more ++ (right.text ++ next)) :=
        plain.leads fun character isFirst => by
          cases isFirst
          rw [admits, (Bool.and_eq_true_iff.mp inline).1, Bool.true_or]
      rw [leftLeads, blankLeads]

/-- Two lexemes with the white space between them are read one after the other. -/
theorem leads_gap
    {left right : Lexeme}
    (plain : left.Plain)
    (rightPlain : right.Plain)
    (index : Nat)
    (next : List Char) :
    ofText (left.text ++ ((layout.gap index left right).flatMap Lexeme.text ++
        (right.text ++ next))) =
      left :: (layout.gap index left right ++ ofText (right.text ++ next)) := by
  obtain ⟨first, begins⟩ := rightPlain.begins
  unfold gap
  split
  · split
    · simpa using leads_blanks plain begins (List.cons_ne_nil ' ' []) rfl next
    · next apart =>
        obtain ⟨rest, text⟩ := begins.text
        refine plain.leads fun character isFirst => ?_
        rw [List.flatMap_nil, List.nil_append, text] at isFirst
        cases isFirst
        exact begins.admits (by simpa using apart)
  · next blank more blanks =>
      simpa using leads_blanks plain begins (List.cons_ne_nil blank more)
        (blanks ▸ layout.inline index) next

/-- The text of lexemes begins with that of the first one. -/
theorem text_spread_cons
    (index : Nat)
    (first : Lexeme)
    (rest : List Lexeme) :
    ∃ next, (layout.spread index (first :: rest)).flatMap Lexeme.text = first.text ++ next := by
  cases rest with
  | nil => exact ⟨[], by simp [spread]⟩
  | cons second rest => exact ⟨_, List.flatMap_cons⟩

/-- Cutting the text of lexemes gives the lexemes back with the white space between them. -/
theorem ofText_spread :
    ∀ {lexemes : List Lexeme} (index : Nat), (∀ lexeme ∈ lexemes, lexeme.Plain) →
      ofText ((layout.spread index lexemes).flatMap Lexeme.text) = layout.spread index lexemes
  | [], _, _ => by
      simp [spread, ofText]
  | [last], _, plain => by
      have leads : Leads last [] := (plain last List.mem_cons_self).leads (by rintro _ ⟨⟩)
      simpa [spread, Leads, ofText] using leads
  | left :: right :: rest, index, plain => by
      obtain ⟨next, text⟩ := layout.text_spread_cons (index + 1) right rest
      have inner := ofText_spread (index + 1) fun lexeme member =>
        plain lexeme (List.mem_cons_of_mem left member)
      have leads := layout.leads_gap (plain left List.mem_cons_self)
        (plain right (List.mem_cons_of_mem _ List.mem_cons_self)) index next
      rw [text] at inner
      rw [spread, List.flatMap_cons, List.flatMap_append, text, leads, inner]

end Reading

end Layout

/-! ## Lexemes that count -/

namespace Token

/--
The lexemes that count: those that are no white space and no comment, where a line break counts only
if it ends a statement.
-/
def counting
    (pending : Bool) :
    List Lexeme → List Lexeme
  | [] => []
  | lexeme :: rest =>
      let kind := kindOf pending lexeme
      let others := counting (pendingAfter pending kind) rest
      if kind.isTrivia then others else ⟨kind, lexeme.text⟩ :: others

/-- A token as a lexeme. -/
def lexeme
    (token : Token) :
    Lexeme :=
  ⟨token.kind, token.text⟩

/-- The tokens that are no trivia are those of the lexemes that count. -/
theorem significant_ofLexemes
    (lexemes : List Lexeme) :
    ∀ (offset : Nat) (pending : Bool),
      ((ofLexemes offset pending lexemes).filter (!·.kind.isTrivia)).map lexeme =
        counting pending lexemes := by
  induction lexemes with
  | nil => exact fun _ _ => rfl
  | cons first rest inductionHypothesis =>
      intro offset pending
      cases trivia : (kindOf pending first).isTrivia <;>
        simp [ofLexemes, counting, trivia, inductionHypothesis, lexeme]

/-- White space does not count. -/
theorem counting_gap
    (layout : Layout)
    (pending : Bool)
    (index : Nat)
    (left right : Lexeme)
    (rest : List Lexeme) :
    counting pending (layout.gap index left right ++ rest) = counting pending rest := by
  unfold Layout.gap
  split
  · split <;> rfl
  · rfl

/-- Lexemes with white space between them count as they do without it. -/
theorem counting_spread
    (layout : Layout) :
    ∀ (lexemes : List Lexeme) (index : Nat) (pending : Bool),
      counting pending (layout.spread index lexemes) = counting pending lexemes
  | [], _, _ => rfl
  | [last], _, _ => rfl
  | left :: right :: rest, index, pending => by
      simp only [Layout.spread, counting, counting_gap,
        counting_spread layout (right :: rest) (index + 1)]

end Token

/-! ## Lexemes of forms -/

open Token

/--
Written lexemes that type declarations use, and those of them that count; whether a line break would
end a statement is given before them and behind them.
-/
structure Counts
    (before after : Bool)
    (written counted : List Lexeme) :
    Prop where
  plain : ∀ lexeme ∈ written, lexeme.Plain
  counting : ∀ rest, counting before (written ++ rest) = counted ++ counting after rest

/-- Lexemes behind which a line break ends a statement, whatever stands before them. -/
def CountsAnywhere
    (written counted : List Lexeme) :
    Prop :=
  ∀ before, Counts before true written counted

namespace Counts

variable {before middle after : Bool} {written counted more moreCounted : List Lexeme}

theorem nil : Counts before before [] [] :=
  ⟨nofun, fun _ => rfl⟩

theorem append
    (first : Counts before middle written counted)
    (second : Counts middle after more moreCounted) :
    Counts before after (written ++ more) (counted ++ moreCounted) where
  plain := List.forall_mem_append.mpr ⟨first.plain, second.plain⟩
  counting rest := by
    rw [List.append_assoc, first.counting, second.counting, List.append_assoc]

theorem single
    {lexeme : Lexeme}
    (plain : lexeme.Plain)
    (notTrivia : lexeme.kind.isTrivia = false)
    (notBreak : lexeme.kind ≠ .newline) :
    Counts before lexeme.kind.triggersSemicolon [lexeme] [lexeme] where
  plain := List.forall_mem_singleton.mpr plain
  counting rest := by
    simp [Token.counting, kindOf, notBreak, notTrivia, pendingAfter]

theorem cons
    {lexeme : Lexeme}
    (plain : lexeme.Plain)
    (notTrivia : lexeme.kind.isTrivia = false)
    (notBreak : lexeme.kind ≠ .newline)
    (rest : Counts lexeme.kind.triggersSemicolon after written counted) :
    Counts before after (lexeme :: written) (lexeme :: counted) :=
  (single plain notTrivia notBreak).append rest

end Counts

namespace Lexeme

/-- The keywords that declarations of types use. -/
def typeKeywords : List Kind :=
  [ .chanKeyword, .funcKeyword, .interfaceKeyword, .mapKeyword, .packageKeyword, .structKeyword,
    .typeKeyword ]

/-- Every keyword is a word. -/
theorem plain_of_mem_keywords
    {text : List Char}
    {kind : Kind}
    (isKnown : (text, kind) ∈ keywords) :
    Plain ⟨kind, text⟩ := by
  have words : ∀ entry ∈ keywords, entry.1.head?.any startsIdentifier = true ∧
      entry.1.tail.all continuesIdentifier = true ∧
        (keywords.lookup entry.1).getD .ident = entry.2 := by
    decide
  obtain ⟨begins, continues, known⟩ := words _ isKnown
  obtain ⟨first, isFirst, starts⟩ := (Option.any_eq_true _ _).mp begins
  obtain ⟨rest, rfl⟩ := List.head?_eq_some_iff.mp isFirst
  simp only [List.tail_cons] at continues
  have plain := Plain.word starts continues
  rw [show (keywords.lookup (first :: rest)).getD .ident = kind from known] at plain
  exact plain

/-- A keyword or a mark of a type declaration, which counts as it is written. -/
theorem plain_ofKind
    {kind : Kind}
    (isUsed : kind ∈ marks ++ typeKeywords) :
    (ofKind kind).Plain ∧ kind.isTrivia = false ∧ kind ≠ .newline := by
  have facts : ∀ kind ∈ marks ++ typeKeywords, kind.isTrivia = false ∧ kind ≠ .newline := by
    decide
  have known : ∀ kind ∈ typeKeywords, ((ofKind kind).text, kind) ∈ keywords := by
    decide
  refine ⟨?_, facts kind isUsed⟩
  rcases List.mem_append.mp isUsed with isMark | isKeyword
  · exact .mark isMark
  · exact plain_of_mem_keywords (known kind isKeyword)

end Lexeme

theorem Counts.ofKind
    {before after : Bool}
    {written counted : List Lexeme}
    (kind : Kind)
    (isUsed : kind ∈ marks ++ typeKeywords)
    (rest : Counts kind.triggersSemicolon after written counted) :
    Counts before after (Lexeme.ofKind kind :: written) (Lexeme.ofKind kind :: counted) :=
  have ⟨plain, notTrivia, notBreak⟩ := plain_ofKind isUsed
  .cons plain notTrivia notBreak rest

/-- A line break that ends a statement counts. -/
theorem Counts.lineBreak : Counts true false [lineBreak] [lineBreak] :=
  ⟨List.forall_mem_singleton.mpr .lineBreak, fun _ => rfl⟩

theorem Identifier.plain
    (ident : Identifier) :
    ident.lexeme.Plain := by
  obtain ⟨text, valid⟩ := ident
  cases text with
  | nil => cases valid
  | cons first rest =>
      simp only [Syntax.isIdentifier, Bool.and_eq_true, Option.isNone_iff_eq_none] at valid
      have plain := Plain.word valid.1.1 valid.1.2
      rw [valid.2] at plain
      exact plain

theorem Identifier.counts
    {before after : Bool}
    {written counted : List Lexeme}
    (ident : Identifier)
    (rest : Counts true after written counted) :
    Counts before after (ident.lexeme :: written) (ident.lexeme :: counted) :=
  .cons ident.plain rfl nofun rest

/-- How items are kept apart, as it counts. -/
structure ItemStyle.Counted
    (style : ItemStyle) :
    Prop where
  opening : Counts false false style.opening []
  separator : Counts true false [style.separator] [style.separator]
  closing : ∃ after, Counts true after style.closing style.closing

theorem Layout.counted
    (layout : Layout) :
    layout.style.Counted := by
  unfold Layout.style
  split
  · exact ⟨⟨List.forall_mem_singleton.mpr .lineBreak, fun _ => rfl⟩, .lineBreak, false, .lineBreak⟩
  · exact ⟨.nil, .ofKind .semicolon (by decide) .nil, true, .nil⟩

section Forms

/-- Pieces that count as others wherever they stand. -/
abbrev PiecesCount :=
  List.Forall₂ CountsAnywhere

theorem counts_behindCommas
    {pieces counted : List (List Lexeme)}
    (count : PiecesCount pieces counted) :
    Counts true true (pieces.flatMap (.ofKind .comma :: ·))
      (counted.flatMap (.ofKind .comma :: ·)) := by
  induction count with
  | nil => exact .nil
  | cons first _ inductionHypothesis =>
      exact .append (.ofKind .comma (by decide) (first false)) inductionHypothesis

/-- Pieces with commas between them count, whatever the mark behind them is. -/
theorem counts_commaSeparated
    {before after : Bool}
    {pieces counted : List (List Lexeme)}
    {written rest : List Lexeme}
    (count : PiecesCount pieces counted)
    (behind : ∀ middle, Counts middle after written rest) :
    Counts before after (commaSeparated pieces ++ written) (commaSeparated counted ++ rest) := by
  cases count with
  | nil => exact behind before
  | cons first others =>
      exact .append (.append (first before) (counts_behindCommas others)) (behind true)

/-- Type arguments in brackets count. -/
theorem counts_inBrackets
    {pieces counted : List (List Lexeme)}
    (count : PiecesCount pieces counted) :
    Counts true true (inBrackets pieces) (inBrackets counted) := by
  cases count with
  | nil => exact .nil
  | cons first others =>
      exact .ofKind .leftBracket (by decide)
        (counts_commaSeparated (.cons first others) fun _ => .ofKind .rightBracket (by decide) .nil)

theorem counts_afterItem
    {style : ItemStyle}
    (isCounted : style.Counted)
    {pieces counted : List (List Lexeme)}
    (count : PiecesCount pieces counted) :
    ∃ after, Counts true after (style.afterItem pieces) (style.unopened.afterItem counted) := by
  induction count with
  | nil => exact isCounted.closing
  | cons first _ inductionHypothesis =>
      obtain ⟨after, others⟩ := inductionHypothesis
      exact ⟨after, .append isCounted.separator (.append (first false) others)⟩

/-- Items between braces count, without what stands in front of the first one. -/
theorem counts_items
    {style : ItemStyle}
    (isCounted : style.Counted)
    {pieces counted : List (List Lexeme)}
    (count : PiecesCount pieces counted) :
    Counts false true (style.items pieces ++ [.ofKind .rightBrace])
      (style.unopened.items counted ++ [.ofKind .rightBrace]) := by
  cases count with
  | nil => exact .ofKind .rightBrace (by decide) .nil
  | cons first others =>
      obtain ⟨after, behind⟩ := counts_afterItem isCounted others
      exact .append (.append (.append isCounted.opening (first false)) behind)
        (.ofKind .rightBrace (by decide) .nil)

theorem Identifier.counts_behind
    (qualifier : Option Identifier)
    (ident : Identifier) :
    CountsAnywhere (ident.lexemesBehind qualifier) (ident.lexemesBehind qualifier) := by
  intro before
  cases qualifier with
  | none => exact ident.counts .nil
  | some package => exact package.counts (.ofKind .dot (by decide) (ident.counts .nil))

theorem Identifier.counts_behindCommas
    (idents : List Identifier) :
    Counts true true (lexemesBehindCommas idents) (lexemesBehindCommas idents) := by
  induction idents with
  | nil => exact .nil
  | cons ident _ inductionHypothesis =>
      exact .append (.ofKind .comma (by decide) (ident.counts .nil)) inductionHypothesis

/-- A field tag counts. -/
theorem counts_tag
    (tag : Option StringLiteral) :
    Counts true true (tag.toList.map StringLiteral.lexeme)
      (tag.toList.map StringLiteral.lexeme) := by
  cases tag with
  | none => exact .nil
  | some literal => exact .single (.literal literal) rfl nofun

/-- A mark that may stand in front of something counts. -/
theorem counts_optional
    {before after : Bool}
    {written counted : List Lexeme}
    (present : Bool)
    (kind : Kind)
    (isUsed : kind ∈ marks ++ typeKeywords)
    (rest : ∀ middle, Counts middle after written counted) :
    Counts before after ((if present then [.ofKind kind] else []) ++ written)
      ((if present then [.ofKind kind] else []) ++ counted) := by
  cases present with
  | false => exact rest before
  | true => exact .ofKind kind isUsed (rest _)

mutual

/-- The lexemes of a type expression count, except for line breaks behind opening braces. -/
theorem TypeForm.counts
    {style : ItemStyle}
    (isCounted : style.Counted) :
    ∀ form : TypeForm, CountsAnywhere (form.lexemes style) (form.lexemes style.unopened)
  | .name qualifier ident args, before =>
      (Identifier.counts_behind qualifier ident before).append
        (counts_inBrackets (typesCount isCounted args))
  | .pointer elem, _ => .ofKind .star (by decide) (elem.counts isCounted _)
  | .slice elem, _ =>
      .ofKind .leftBracket (by decide) (.ofKind .rightBracket (by decide) (elem.counts isCounted _))
  | .array length elem, _ => by
      refine .ofKind .leftBracket (by decide) ?_
      have behind : Counts true true
          (.ofKind .rightBracket :: elem.lexemes style)
          (.ofKind .rightBracket :: elem.lexemes style.unopened) :=
        .ofKind .rightBracket (by decide) (elem.counts isCounted _)
      cases length with
      | name ident => exact ident.counts behind
      | number text isInteger => exact .cons (.number isInteger) rfl nofun behind
  | .map key value, _ =>
      .ofKind .mapKeyword (by decide) (.ofKind .leftBracket (by decide)
        ((key.counts isCounted _).append
          (.ofKind .rightBracket (by decide) (value.counts isCounted _))))
  | .chan direction elem, before => by
      cases direction with
      | both => exact .ofKind .chanKeyword (by decide) (elem.counts isCounted _)
      | send =>
          exact .ofKind .chanKeyword (by decide) (.ofKind .arrow (by decide)
            (elem.counts isCounted _))
      | receive =>
          exact .ofKind .arrow (by decide) (.ofKind .chanKeyword (by decide)
            (elem.counts isCounted _))
  | .func params result, _ =>
      .ofKind .funcKeyword (by decide) (.ofKind .leftParen (by decide)
        (counts_commaSeparated (paramsCount isCounted params) fun _ =>
          .ofKind .rightParen (by decide) (result.counts isCounted)))
  | .struct fields, _ =>
      .ofKind .structKeyword (by decide) (.ofKind .leftBrace (by decide)
        (counts_items isCounted (fieldsCount isCounted fields)))
  | .interface elems, _ =>
      .ofKind .interfaceKeyword (by decide) (.ofKind .leftBrace (by decide)
        (counts_items isCounted (elemsCount isCounted elems)))
  | .paren inner, _ =>
      .ofKind .leftParen (by decide)
        ((inner.counts isCounted _).append (.ofKind .rightParen (by decide) .nil))

/-- The lexemes of each of several type expressions count. -/
theorem typesCount
    {style : ItemStyle}
    (isCounted : style.Counted) :
    ∀ types : List TypeForm,
      PiecesCount (typesLexemes style types) (typesLexemes style.unopened types)
  | [] => .nil
  | first :: rest => .cons (first.counts isCounted) (typesCount isCounted rest)

/-- The lexemes of an entry of a parameter list count. -/
theorem ParamForm.counts
    {style : ItemStyle}
    (isCounted : style.Counted) :
    ∀ form : ParamForm, CountsAnywhere (form.lexemes style) (form.lexemes style.unopened)
  | .mk name variadic type, before => by
      have typed : CountsAnywhere
          ((if variadic then [.ofKind .ellipsis] else []) ++ type.lexemes style)
          ((if variadic then [.ofKind .ellipsis] else []) ++ type.lexemes style.unopened) :=
        fun _ => counts_optional variadic .ellipsis (by decide) (type.counts isCounted)
      cases name with
      | none => exact typed before
      | some ident => exact ident.counts (typed true)

/-- The lexemes of each entry of a parameter list count. -/
theorem paramsCount
    {style : ItemStyle}
    (isCounted : style.Counted) :
    ∀ params : List ParamForm,
      PiecesCount (paramsLexemes style params) (paramsLexemes style.unopened params)
  | [] => .nil
  | first :: rest => .cons (first.counts isCounted) (paramsCount isCounted rest)

/-- The lexemes of results count. -/
theorem ResultForm.counts
    {style : ItemStyle}
    (isCounted : style.Counted) :
    ∀ form : ResultForm,
      Counts true true (form.lexemes style) (form.lexemes style.unopened)
  | .none => .nil
  | .single type => type.counts isCounted _
  | .list params =>
      .ofKind .leftParen (by decide)
        (counts_commaSeparated (paramsCount isCounted params) fun _ =>
          .ofKind .rightParen (by decide) .nil)

/-- The lexemes of a field declaration count. -/
theorem FieldForm.counts
    {style : ItemStyle}
    (isCounted : style.Counted) :
    ∀ form : FieldForm, CountsAnywhere (form.lexemes style) (form.lexemes style.unopened)
  | .named first more type tag, _ =>
      first.counts ((Identifier.counts_behindCommas more).append
        ((type.counts isCounted _).append (counts_tag tag)))
  | .embedded starred qualifier ident args tag, _ =>
      counts_optional starred .star (by decide) fun middle =>
        (Identifier.counts_behind qualifier ident middle).append
          ((counts_inBrackets (typesCount isCounted args)).append (counts_tag tag))

/-- The lexemes of each of several field declarations count. -/
theorem fieldsCount
    {style : ItemStyle}
    (isCounted : style.Counted) :
    ∀ fields : List FieldForm,
      PiecesCount (fieldsLexemes style fields) (fieldsLexemes style.unopened fields)
  | [] => .nil
  | first :: rest => .cons (first.counts isCounted) (fieldsCount isCounted rest)

/-- The lexemes of an interface element count. -/
theorem ElemForm.counts
    {style : ItemStyle}
    (isCounted : style.Counted) :
    ∀ form : ElemForm, CountsAnywhere (form.lexemes style) (form.lexemes style.unopened)
  | .method name params result, _ =>
      name.counts (.ofKind .leftParen (by decide)
        (counts_commaSeparated (paramsCount isCounted params) fun _ =>
          .ofKind .rightParen (by decide) (result.counts isCounted)))
  | .terms terms, before => terms.counts isCounted before

/-- The lexemes of each of several interface elements count. -/
theorem elemsCount
    {style : ItemStyle}
    (isCounted : style.Counted) :
    ∀ elems : List ElemForm,
      PiecesCount (elemsLexemes style elems) (elemsLexemes style.unopened elems)
  | [] => .nil
  | first :: rest => .cons (first.counts isCounted) (elemsCount isCounted rest)

/-- The lexemes of the terms of an interface element count. -/
theorem TermsForm.counts
    {style : ItemStyle}
    (isCounted : style.Counted) :
    ∀ form : TermsForm, CountsAnywhere (form.lexemes style) (form.lexemes style.unopened)
  | .last tilde type, _ => counts_optional tilde .tilde (by decide) (type.counts isCounted)
  | .more tilde type rest, _ =>
      counts_optional tilde .tilde (by decide) fun middle =>
        (type.counts isCounted middle).append
          (.ofKind .pipe (by decide) (rest.counts isCounted _))

end

end Forms

end Implementers.Syntax
