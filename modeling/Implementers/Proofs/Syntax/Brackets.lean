import Implementers.Proofs.Syntax.Recognition

namespace Implementers.Syntax

/-!
# Square brackets that match

In the lexemes of a type expression every square bracket that is opened is closed again, so looking
for the bracket that closes one from outside passes over them.  What stands behind that bracket
tells an identifier with type arguments from one with a slice or array type behind it.
-/

/-- Lexemes in which every square bracket that is opened is closed again. -/
inductive Balanced : List Lexeme → Prop where
  | nil : Balanced []
  | cons
      {lexeme : Lexeme}
      {rest : List Lexeme}
      (notOpening : lexeme.kind ≠ .leftBracket)
      (notClosing : lexeme.kind ≠ .rightBracket)
      (balanced : Balanced rest) :
      Balanced (lexeme :: rest)
  | brackets
      {inner rest : List Lexeme}
      (within : Balanced inner)
      (balanced : Balanced rest) :
      Balanced (.ofKind .leftBracket :: (inner ++ .ofKind .rightBracket :: rest))

namespace Balanced

variable {lexemes others : List Lexeme} {pieces : List (List Lexeme)}

theorem append
    (front : Balanced lexemes)
    (back : Balanced others) :
    Balanced (lexemes ++ others) := by
  induction front with
  | nil => exact back
  | cons notOpening notClosing _ inductionHypothesis =>
      exact .cons notOpening notClosing inductionHypothesis
  | brackets within _ _ inductionHypothesis =>
      rw [List.cons_append, List.append_assoc, List.cons_append]
      exact .brackets within inductionHypothesis

theorem commaSeparated
    (each : ∀ piece ∈ pieces, Balanced piece) :
    Balanced (commaSeparated pieces) := by
  cases pieces with
  | nil => exact .nil
  | cons first rest =>
      obtain ⟨isFirst, others⟩ := List.forall_mem_cons.mp each
      refine append isFirst ?_
      clear each isFirst
      induction rest with
      | nil => exact .nil
      | cons next rest inductionHypothesis =>
          obtain ⟨isNext, later⟩ := List.forall_mem_cons.mp others
          exact .cons nofun nofun (isNext.append (inductionHypothesis later))

theorem inBrackets
    (each : ∀ piece ∈ pieces, Balanced piece) :
    Balanced (inBrackets pieces) := by
  unfold Syntax.inBrackets
  split
  · exact .nil
  · exact .brackets (commaSeparated each) .nil

theorem items
    {style : ItemStyle}
    (regular : style.Regular)
    (each : ∀ piece ∈ pieces, Balanced piece) :
    Balanced (style.items pieces) := by
  have separator : ∀ {rest : List Lexeme}, Balanced rest → Balanced (style.separator :: rest) := by
    intro rest balanced
    have terminates := regular.separator
    refine .cons ?_ ?_ balanced <;>
      · intro isBracket
        rw [isBracket] at terminates
        cases terminates
  cases pieces with
  | nil => exact .nil
  | cons first rest =>
      obtain ⟨isFirst, others⟩ := List.forall_mem_cons.mp each
      rw [ItemStyle.items, regular.opening]
      refine append isFirst ?_
      clear each isFirst
      induction rest with
      | nil =>
          rw [ItemStyle.afterItem]
          rcases regular.closing with closing | closing <;> rw [closing]
          · exact .nil
          · exact separator .nil
      | cons next rest inductionHypothesis =>
          obtain ⟨isNext, later⟩ := List.forall_mem_cons.mp others
          exact separator (isNext.append (inductionHypothesis later))

end Balanced

section Forms

variable {style : ItemStyle}

theorem Identifier.balanced
    {rest : List Lexeme}
    (ident : Identifier)
    (balanced : Balanced rest) :
    Balanced (ident.lexeme :: rest) :=
  .cons nofun nofun balanced

theorem Identifier.balanced_behind
    (qualifier : Option Identifier)
    (ident : Identifier) :
    Balanced (ident.lexemesBehind qualifier) := by
  cases qualifier with
  | none => exact ident.balanced .nil
  | some package => exact package.balanced (.cons nofun nofun (ident.balanced .nil))

theorem Identifier.balanced_behindCommas
    (idents : List Identifier) :
    Balanced (lexemesBehindCommas idents) := by
  induction idents with
  | nil => exact .nil
  | cons ident _ inductionHypothesis =>
      exact .cons nofun nofun (ident.balanced inductionHypothesis)

theorem ArrayLength.balanced
    {rest : List Lexeme}
    (length : ArrayLength)
    (balanced : Balanced rest) :
    Balanced (length.lexeme :: rest) := by
  cases length <;> exact .cons nofun nofun balanced

theorem balanced_tag
    (tag : Option StringLiteral) :
    Balanced (tag.toList.map StringLiteral.lexeme) := by
  cases tag with
  | none => exact .nil
  | some => exact .cons nofun nofun .nil

/-- A mark that may stand in front of something is no bracket. -/
theorem Balanced.optional
    {kind : Kind}
    {rest : List Lexeme}
    (present : Bool)
    (notOpening : kind ≠ .leftBracket)
    (notClosing : kind ≠ .rightBracket)
    (balanced : Balanced rest) :
    Balanced ((if present then [.ofKind kind] else []) ++ rest) := by
  cases present with
  | false => exact balanced
  | true => exact .cons notOpening notClosing balanced

mutual

/-- The brackets of a type expression match. -/
theorem TypeForm.balanced
    (regular : style.Regular) :
    ∀ form : TypeForm, Balanced (form.lexemes style)
  | .name qualifier ident args =>
      (Identifier.balanced_behind qualifier ident).append (.inBrackets (typesBalanced regular args))
  | .pointer elem => .cons nofun nofun (elem.balanced regular)
  | .slice elem => .brackets .nil (elem.balanced regular)
  | .array length elem => .brackets (length.balanced .nil) (elem.balanced regular)
  | .map key value =>
      .cons nofun nofun (.brackets (key.balanced regular) (value.balanced regular))
  | .chan direction elem => by
      have behind := elem.balanced regular
      cases direction with
      | both => exact .cons nofun nofun behind
      | send => exact .cons nofun nofun (.cons nofun nofun behind)
      | receive => exact .cons nofun nofun (.cons nofun nofun behind)
  | .func params result =>
      .cons nofun nofun (.cons nofun nofun
        ((Balanced.commaSeparated (paramsBalanced regular params)).append
          (.cons nofun nofun (result.balanced regular))))
  | .struct fields =>
      .cons nofun nofun (.cons nofun nofun
        ((Balanced.items regular (fieldsBalanced regular fields)).append
          (.cons nofun nofun .nil)))
  | .interface elems =>
      .cons nofun nofun (.cons nofun nofun
        ((Balanced.items regular (elemsBalanced regular elems)).append (.cons nofun nofun .nil)))
  | .paren inner =>
      .cons nofun nofun ((inner.balanced regular).append (.cons nofun nofun .nil))

/-- The brackets of each of several type expressions match. -/
theorem typesBalanced
    (regular : style.Regular) :
    ∀ types : List TypeForm, ∀ piece ∈ typesLexemes style types, Balanced piece
  | [] => nofun
  | first :: rest =>
      List.forall_mem_cons.mpr ⟨first.balanced regular, typesBalanced regular rest⟩

/-- The brackets of an entry of a parameter list match. -/
theorem ParamForm.balanced
    (regular : style.Regular) :
    ∀ form : ParamForm, Balanced (form.lexemes style)
  | .mk name variadic type => by
      have typed :
          Balanced ((if variadic then [.ofKind .ellipsis] else []) ++ type.lexemes style) :=
        .optional variadic nofun nofun (type.balanced regular)
      cases name with
      | none => exact typed
      | some ident => exact ident.balanced typed

/-- The brackets of each entry of a parameter list match. -/
theorem paramsBalanced
    (regular : style.Regular) :
    ∀ params : List ParamForm, ∀ piece ∈ paramsLexemes style params, Balanced piece
  | [] => nofun
  | first :: rest =>
      List.forall_mem_cons.mpr ⟨first.balanced regular, paramsBalanced regular rest⟩

/-- The brackets of results match. -/
theorem ResultForm.balanced
    (regular : style.Regular) :
    ∀ form : ResultForm, Balanced (form.lexemes style)
  | .none => .nil
  | .single type => type.balanced regular
  | .list params =>
      .cons nofun nofun ((Balanced.commaSeparated (paramsBalanced regular params)).append
        (.cons nofun nofun .nil))

/-- The brackets of a field declaration match. -/
theorem FieldForm.balanced
    (regular : style.Regular) :
    ∀ form : FieldForm, Balanced (form.lexemes style)
  | .named first more type tag =>
      first.balanced ((Identifier.balanced_behindCommas more).append
        ((type.balanced regular).append (balanced_tag tag)))
  | .embedded starred qualifier ident args tag =>
      .optional starred nofun nofun ((Identifier.balanced_behind qualifier ident).append
        ((Balanced.inBrackets (typesBalanced regular args)).append (balanced_tag tag)))

/-- The brackets of each of several field declarations match. -/
theorem fieldsBalanced
    (regular : style.Regular) :
    ∀ fields : List FieldForm, ∀ piece ∈ fieldsLexemes style fields, Balanced piece
  | [] => nofun
  | first :: rest =>
      List.forall_mem_cons.mpr ⟨first.balanced regular, fieldsBalanced regular rest⟩

/-- The brackets of an interface element match. -/
theorem ElemForm.balanced
    (regular : style.Regular) :
    ∀ form : ElemForm, Balanced (form.lexemes style)
  | .method name params result =>
      name.balanced (.cons nofun nofun
        ((Balanced.commaSeparated (paramsBalanced regular params)).append
          (.cons nofun nofun (result.balanced regular))))
  | .terms terms => terms.balanced regular

/-- The brackets of each of several interface elements match. -/
theorem elemsBalanced
    (regular : style.Regular) :
    ∀ elems : List ElemForm, ∀ piece ∈ elemsLexemes style elems, Balanced piece
  | [] => nofun
  | first :: rest =>
      List.forall_mem_cons.mpr ⟨first.balanced regular, elemsBalanced regular rest⟩

/-- The brackets of the terms of an interface element match. -/
theorem TermsForm.balanced
    (regular : style.Regular) :
    ∀ form : TermsForm, Balanced (form.lexemes style)
  | .last tilde type => .optional tilde nofun nofun (type.balanced regular)
  | .more tilde type rest =>
      .optional tilde nofun nofun
        ((type.balanced regular).append (.cons nofun nofun (rest.balanced regular)))

end

end Forms

/-! ## Looking for the closing bracket -/

namespace Cursor

/-- Trivia does not count on the way to a closing bracket. -/
theorem behindClosing?_dropWhile
    {opening closing : Kind}
    (opens : opening.isTrivia = false)
    (closes : closing.isTrivia = false)
    (depth : Nat)
    (tokens : List Token) :
    behindClosing? opening closing depth (tokens.dropWhile isTrivia) =
      behindClosing? opening closing depth tokens := by
  induction tokens with
  | nil => rfl
  | cons token rest inductionHypothesis =>
      cases trivia : isTrivia token with
      | false => simp [trivia]
      | true =>
          have notOpening : token.kind ≠ opening := by
            rintro rfl
            simp [isTrivia, opens] at trivia
          have notClosing : token.kind ≠ closing := by
            rintro rfl
            simp [isTrivia, closes] at trivia
          simp [trivia, behindClosing?, notOpening, notClosing, inductionHypothesis]

/-- One step on the way to a closing square bracket. -/
theorem behindClosing?_lexeme
    {tokens : List Token}
    {lexeme : Lexeme}
    {others : List Lexeme}
    (comes : Token.lexemes tokens = lexeme :: others)
    (depth : Nat) :
    ∃ rest, Token.lexemes rest = others ∧
      behindClosing? .leftBracket .rightBracket depth tokens =
        if lexeme.kind = .leftBracket then
          behindClosing? .leftBracket .rightBracket (depth + 1) rest
        else if lexeme.kind = .rightBracket then
          if depth ≤ 1 then some rest
          else behindClosing? .leftBracket .rightBracket (depth - 1) rest
        else
          behindClosing? .leftBracket .rightBracket depth rest := by
  obtain ⟨token, rest, next, _, rfl, behind⟩ := dropWhile_of_lexemes comes
  refine ⟨rest, behind, ?_⟩
  rw [← behindClosing?_dropWhile rfl rfl, next]
  rfl

/-- The way to a closing square bracket passes over balanced lexemes. -/
theorem behindClosing?_balanced
    {lexemes : List Lexeme}
    (balanced : Balanced lexemes) :
    ∀ {depth : Nat} {tokens : List Token} {others : List Lexeme}, 0 < depth →
      Token.lexemes tokens = lexemes ++ others →
      ∃ after, Token.lexemes after = others ∧
        behindClosing? .leftBracket .rightBracket depth tokens =
          behindClosing? .leftBracket .rightBracket depth after := by
  induction balanced with
  | nil => exact fun _ comes => ⟨_, comes, rfl⟩
  | cons notOpening notClosing _ inductionHypothesis =>
      intro depth tokens others positive comes
      obtain ⟨rest, behind, step⟩ := behindClosing?_lexeme comes depth
      obtain ⟨after, areOthers, same⟩ := inductionHypothesis positive behind
      exact ⟨after, areOthers, by rw [step, if_neg notOpening, if_neg notClosing, same]⟩
  | brackets _ _ withinHypothesis inductionHypothesis =>
      intro depth tokens others positive comes
      rw [List.cons_append, List.append_assoc] at comes
      obtain ⟨inside, comesInside, opens⟩ := behindClosing?_lexeme comes depth
      obtain ⟨closing, comesClosing, passes⟩ :=
        withinHypothesis (Nat.succ_pos depth) comesInside
      obtain ⟨behind, comesBehind, closes⟩ := behindClosing?_lexeme comesClosing (depth + 1)
      obtain ⟨after, areOthers, same⟩ := inductionHypothesis positive comesBehind
      refine ⟨after, areOthers, ?_⟩
      have deeper : ¬ depth + 1 ≤ 1 := by omega
      simp only [opens, passes, closes, deeper, Lexeme.kind_ofKind, reduceCtorEq, if_true, if_false,
        Nat.add_sub_cancel, same]

theorem firstKind?_eq
    (tokens : List Token) :
    firstKind? tokens = (Token.lexemes tokens).head?.map Lexeme.kind := by
  have first := congrArg (Option.map Lexeme.kind) (head?_ahead 0 tokens)
  rw [lexemes_ahead, List.drop_zero, Option.map_map] at first
  exact first

/--
An identifier with square brackets behind it has a slice or array type behind it, if the brackets
are empty or a type begins behind them.
-/
theorem identThenArrayType_eq
    {cursor : Cursor}
    {ident : Lexeme}
    {inner after : List Lexeme}
    (coming : cursor.coming =
      ident :: .ofKind .leftBracket :: (inner ++ .ofKind .rightBracket :: after))
    (balanced : Balanced inner) :
    cursor.identThenArrayType =
      (inner.isEmpty || (after.head?.map Lexeme.kind).any Kind.startsType) := by
  have comes := lexemes_ahead 1 cursor.rest
  have first := head?_ahead 1 cursor.rest
  rw [show Token.lexemes cursor.rest = _ from coming, List.drop_one, List.tail_cons] at comes
  rw [comes] at first
  unfold identThenArrayType
  cases isAhead : ahead 1 cursor.rest with
  | nil =>
      rw [isAhead] at first
      cases first
  | cons bracket behind =>
      rw [isAhead] at comes first
      have isBracket : bracket.kind = .leftBracket :=
        congrArg Lexeme.kind (Option.some.inj first)
      rw [Token.lexemes_cons, isBracket] at comes
      have comesBehind := (List.cons.inj comes).2
      obtain ⟨closing, comesClosing, passes⟩ :=
        behindClosing?_balanced balanced (Nat.succ_pos 0) comesBehind
      obtain ⟨rest, comesRest, closes⟩ := behindClosing?_lexeme comesClosing 1
      have found : behindClosing? .leftBracket .rightBracket 1 behind = some rest := by
        rw [passes, closes]
        rfl
      simp only [isBracket, found, firstKind?_eq, comesBehind, comesRest, decide_true,
        Bool.true_and]
      cases balanced with
      | nil => rfl
      | cons _ notClosing _ => simp [notClosing]
      | brackets => rfl

end Cursor

end Implementers.Syntax
